import CollideOScope.Flight.Writer

/-!
# What the directory holds at every step

Every file that was ever renamed is whole, and the files that still carry the
completed name are the latest of them.  The writer holds at most one active
file, above all of these numbers.  The events of the completed files, then of
the active file, then the one in hand come in the order they left the queue.
-/

namespace CollideOScope.Flight

open Nat List PendingEvent

variable {E C B : Type}

/-- A header, the events of the file, and a marker that counts them; nothing is
left to be synced. -/
structure Whole (format : RecorderFormat E C B) (file : Artifact E) : Prop where
  durable : file.unsynced = []
  bounded : file.bytes.length ≤ format.perRotationByteCap
  text : ∃ build snapshots droppedFull, file.bytes =
    format.encodeLine (.header file.rotation build snapshots) ++ format.eventLines file.events ++
      format.encodeLine (.complete file.events.length droppedFull)

def Ascending (files : List (Artifact E)) : Prop :=
  files.Pairwise fun a b => a.rotation < b.rotation

variable {directory : Directory E}

theorem completedArtifacts_eq (h : Ascending directory.completed) :
    directory.completedArtifacts = directory.completed :=
  List.Pairwise.insertionSort_eq (h.imp fun hlt => le_of_lt hlt)

theorem excess_eq (h : Ascending directory.completed) :
    directory.excess = (directory.completed.take
      (directory.completed.length - retainedCompletedRotations)).map
        Artifact.rotation := by
  rw [Directory.excess, completedArtifacts_eq h]

variable {numbers : List ℕ} {start n : ℕ}

theorem le_foldl_max (h : n ≤ start ∨ n ∈ numbers) : n ≤ numbers.foldl max start := by
  induction numbers generalizing start with
  | nil => simpa using h
  | cons head rest ih =>
    apply ih
    rcases h with hle | hmem
    · exact .inl (hle.trans (le_max_left _ _))
    · rcases mem_cons.mp hmem with rfl | hmem
      · exact .inl (le_max_right _ _)
      · exact .inr hmem

theorem foldl_max_lt {bound : ℕ} (hstart : start < bound)
    (h : ∀ n ∈ numbers, n < bound) : numbers.foldl max start < bound := by
  induction numbers generalizing start with
  | nil => exact hstart
  | cons head rest ih =>
    exact ih (max_lt hstart (h head mem_cons_self))
      fun n hmem => h n (mem_cons_of_mem _ hmem)

/-- The numbers stay below the end of 64 bits. -/
def Numbered (directory : Directory E) : Prop :=
  ∀ file ∈ directory.completed ++ directory.active, file.rotation < u64Max

theorem saturatingAddU64_one (h : n < u64Max) : saturatingAddU64 n 1 = n + 1 := min_eq_left h

theorem lt_next_of_mem (h : Numbered directory) {file : Artifact E}
    (hmem : file ∈ directory.completed ++ directory.active) :
    file.rotation < saturatingAddU64 directory.highest 1 := by
  have hhighest : directory.highest < u64Max := by
    refine foldl_max_lt (by decide) ?_
    intro n hn
    obtain ⟨other, hother, rfl⟩ := mem_map.mp hn
    exact h other hother
  rw [saturatingAddU64_one hhighest]
  exact lt_succ_of_le (le_foldl_max (.inr (mem_map.mpr ⟨file, hmem, rfl⟩)))

/-- The number is above every file that was ever published, and it belongs to
the running process. -/
structure Fresh (first : ℕ) (published : List (Artifact E)) (rotation : ℕ) : Prop where
  own : first ≤ rotation
  above : ∀ file ∈ published, file.rotation < rotation

/-- The active file of a rotation, whose text so far is `tail` after the header
and the events. -/
structure Writing (format : RecorderFormat E C B) (directory : Directory E)
    (file : RotationFile) (active : Artifact E) (tail : Bytes) : Prop where
  only : directory.active = [active]
  number : active.rotation = file.rotation
  few : directory.completed.length ≤ retainedCompletedRotations
  counted : file.eventCount = active.events.length
  text : ∃ build snapshots, active.bytes =
    format.encodeLine (.header file.rotation build snapshots) ++
      format.eventLines active.events ++ tail

/-- The rotation that follows has a number of its own. -/
def AfterSound (first : ℕ) (published : List (Artifact E)) : After E → Prop
  | .start rotation => Fresh first published rotation
  | .reopen _ => ∃ newest, published.getLast? = some newest ∧ first ≤ newest.rotation
  | .stop => True

def After.followsSeal : After E → Prop
  | .start _ => False
  | .reopen _ => True
  | .stop => True

def OpenFile (format : RecorderFormat E C B) (s : State E C B) (file : RotationFile) : Prop :=
  Fresh s.first s.published file.rotation ∧
    ∃ active, Writing format s.directory file active [] ∧ file.bytesWritten = active.bytes.length

def MarkedFile (format : RecorderFormat E C B) (s : State E C B)
    (file : RotationFile) (active : Artifact E) : Prop :=
  Fresh s.first s.published file.rotation ∧
    ∃ droppedFull, Writing format s.directory file active
      (format.encodeLine (.complete active.events.length droppedFull))

def PhaseSound (format : RecorderFormat E C B) (s : State E C B) : Phase E → Prop
  | .down => True
  | .discarding stale first =>
    stale = s.directory.active.map Artifact.rotation ∧ Fresh s.first s.published first
  | .pruning excess after =>
    s.directory.active = [] ∧ excess = s.directory.excess ∧ AfterSound s.first s.published after
  | .creating rotation _ =>
    s.directory.active = [] ∧
      s.directory.completed.length ≤ retainedCompletedRotations ∧
      Fresh s.first s.published rotation
  | .heading rotation _ =>
    s.directory.active = [.created rotation] ∧
      s.directory.completed.length ≤ retainedCompletedRotations ∧
      Fresh s.first s.published rotation
  | .syncingHead file _ => OpenFile format s file
  | .appending file _ => OpenFile format s file
  | .ready file => OpenFile format s file
  | .completing file after => after.followsSeal ∧ OpenFile format s file
  | .syncing file after => after.followsSeal ∧ ∃ active, MarkedFile format s file active
  | .renaming file after => after.followsSeal ∧
      ∃ active, MarkedFile format s file active ∧ active.unsynced = []

/-- The event that has been dequeued and is not written yet. -/
def After.pending : After E → List E
  | .start _ => []
  | .reopen pending => (pending.map queued).toList
  | .stop => []

def Phase.pending : Phase E → List E
  | .down => []
  | .discarding _ _ => []
  | .pruning _ after => after.pending
  | .creating _ pending => (pending.map queued).toList
  | .heading _ pending => (pending.map queued).toList
  | .syncingHead _ pending => (pending.map queued).toList
  | .appending _ pending => [pending.queued]
  | .ready _ => []
  | .completing _ after => after.pending
  | .syncing _ after => after.pending
  | .renaming _ after => after.pending

/-- Whether the active file belongs to the running process. -/
def Phase.writes : Phase E → Bool
  | .down => false
  | .discarding _ _ => false
  | _ => true

def eventsOf (files : List (Artifact E)) : List E := files.flatMap Artifact.events

namespace State

def ownCompleted (s : State E C B) : List (Artifact E) :=
  s.directory.completed.filter fun file => s.first ≤ file.rotation

/-- The events of the active file, and the one in hand. -/
def rest (s : State E C B) : List E :=
  (if s.phase.writes then eventsOf s.directory.active else []) ++ s.phase.pending

end State

structure Sound (format : RecorderFormat E C B) (s : State E C B) : Prop where
  whole : ∀ file ∈ s.published, Whole format file
  ascending : Ascending s.published
  retained : s.directory.completed.IsSuffix s.published
  enough : min retainedCompletedRotations s.published.length ≤ s.directory.completed.length
  single : s.directory.active.length ≤ 1
  small : ∀ file ∈ s.directory.active, file.bytes.length ≤ format.perRotationByteCap
  room : s.directory.completed.length + s.directory.active.length ≤ retainedCompletedRotations + 1
  phase : PhaseSound format s s.phase
  own : ∃ before lost, s.dequeued =
    before ++ eventsOf s.ownCompleted ++ s.rest ++ lost ∧ (s.phase ≠ .down → lost = [])
  ordered : (eventsOf s.directory.completed ++ s.rest).Sublist s.history

namespace Sound

variable {format : RecorderFormat E C B} {s : State E C B}

theorem completed_ascending (h : Sound format s) : Ascending s.directory.completed :=
  h.ascending.sublist h.retained.sublist

theorem mem_published (h : Sound format s) {file : Artifact E}
    (hmem : file ∈ s.directory.completed) : file ∈ s.published :=
  h.retained.subset hmem

theorem initial : Sound format (.initial format) := by
  refine ⟨by simp [State.initial], List.Pairwise.nil, suffix_refl _,
    zero_le _, zero_le _, by simp [State.initial], zero_le _,
    trivial, ⟨[], [], rfl, fun _ => rfl⟩, List.Sublist.slnil⟩

theorem goDown (h : Sound format s) : Sound format (s.goTo .down) := by
  obtain ⟨before, lost, hdequeued, -⟩ := h.own
  have hrest : (s.goTo .down).rest = [] := rfl
  refine ⟨h.whole, h.ascending, h.retained, h.enough, h.single, h.small, h.room,
    trivial, ⟨before, s.rest ++ lost, ?_, fun hne => absurd rfl hne⟩, ?_⟩
  · rw [hrest, append_nil, ← append_assoc]
    exact hdequeued
  · rw [hrest, append_nil]
    exact (sublist_append_left _ _).trans h.ordered

end Sound

/-!
## Every step keeps the evidence

A file operation either touches the active file alone, or removes the oldest
completed file, or renames the active file to a completed one.
-/

variable {E C B : Type} {format : RecorderFormat E C B} {s t : State E C B}

theorem Sound.move (h : Sound format s)
    (hcomp : t.directory.completed = s.directory.completed)
    (hpub : t.published = s.published) (hfst : t.first = s.first)
    (hdequeued : t.dequeued = s.dequeued) (hhist : t.history = s.history)
    (hph : PhaseSound format t t.phase)
    (hsingle : t.directory.active.length ≤ 1)
    (hsmall : ∀ file ∈ t.directory.active, file.bytes.length ≤ format.perRotationByteCap)
    (hroom : t.directory.completed.length + t.directory.active.length ≤
      retainedCompletedRotations + 1)
    (hrest : t.rest = s.rest) (hrun : s.phase ≠ .down) :
    Sound format t := by
  have hown : t.ownCompleted = s.ownCompleted := by
    rw [State.ownCompleted, hcomp, hfst]
    rfl
  obtain ⟨before, lost, hevs, hlost⟩ := h.own
  refine ⟨?_, ?_, ?_, ?_, hsingle, hsmall, hroom, hph, ⟨before, lost, ?_, fun _ => hlost hrun⟩, ?_⟩
  · rw [hpub]
    exact h.whole
  · rw [hpub]
    exact h.ascending
  · rw [hpub, hcomp]
    exact h.retained
  · rw [hpub, hcomp]
    exact h.enough
  · rw [hdequeued, hown, hrest]
    exact hevs
  · rw [hcomp, hrest, hhist]
    exact h.ordered

variable {active : Artifact E} {rotation : ℕ}

theorem activeFile_of_only (honly : s.directory.active = [active])
    (hnum : active.rotation = rotation) :
    s.directory.activeFile rotation = some active := by
  simp [Directory.activeFile, honly, hnum]

variable {phase : Phase E}

theorem writeActive_of_only (rotation : ℕ) {change : Artifact E → Artifact E}
    (honly : s.directory.active = [active]) (hnum : active.rotation = rotation)
    (hchange : ∀ file, (change file).rotation = file.rotation) :
    s.writeActive rotation change phase =
      { s with
        directory := ⟨s.directory.completed, [change active]⟩
        phase := phase } := by
  rw [State.writeActive, activeFile_of_only honly hnum]
  simp [Directory.setActive, honly, hchange]

theorem Sound.write (h : Sound format s) (changed : Artifact E)
    (phase : Phase E) (honly : s.directory.active = [active])
    (hrun : s.phase ≠ .down)
    (hsmall : changed.bytes.length ≤ format.perRotationByteCap)
    (hrest : ({ s with
      directory := ⟨s.directory.completed, [changed]⟩
      phase := phase } : State E C B).rest = s.rest)
    (hph : PhaseSound format
      { s with
        directory := ⟨s.directory.completed, [changed]⟩
        phase := phase } phase) :
    Sound format
      { s with
        directory := ⟨s.directory.completed, [changed]⟩
        phase := phase } := by
  have hroom := h.room
  rw [honly] at hroom
  refine h.move rfl rfl rfl rfl rfl hph (le_refl _) ?_ hroom hrest hrun
  intro file hmem
  obtain rfl := mem_singleton.mp hmem
  exact hsmall

theorem Sound.goTo (h : Sound format s) (hrun : s.phase ≠ .down)
    (hrest : (s.goTo phase).rest = s.rest) (hph : PhaseSound format (s.goTo phase) phase) :
    Sound format (s.goTo phase) :=
  h.move rfl rfl rfl rfl rfl hph h.single h.small h.room hrest hrun

variable {rest : List ℕ} {first : ℕ}

theorem Sound.discard (h : Sound format s) (hph : s.phase = .discarding (rotation :: rest) first) :
    Sound format
      { s with
        directory := s.directory.removeActive rotation
        phase := .discarding rest first } := by
  have hsound := h.phase
  rw [hph] at hsound
  obtain ⟨hstale, hfresh⟩ := hsound
  have hsingle := h.single
  rcases hact : s.directory.active with _ | ⟨active, _ | ⟨second, others⟩⟩
  · rw [hact] at hstale
    cases hstale
  · rw [hact] at hstale
    obtain ⟨rfl, rfl⟩ := List.cons.inj hstale
    have hnone : (s.directory.removeActive active.rotation).active = [] := by
      simp [Directory.removeActive, hact]
    refine h.move rfl rfl rfl rfl rfl ⟨?_, hfresh⟩ ?_ ?_ ?_ ?_ ?_
    · rw [hnone]
    · rw [hnone]
      exact zero_le _
    · rw [hnone]
      simp
    · rw [hnone]
      exact (le_add_right _ _).trans h.room
    · simp [State.rest, hph, Phase.writes, Phase.pending]
    · rw [hph]
      simp
  · rw [hact] at hsingle
    simp at hsingle

theorem Sound.discarded (h : Sound format s) (hph : s.phase = .discarding [] first) :
    Sound format (s.prune (.start first)) := by
  have hsound := h.phase
  rw [hph] at hsound
  obtain ⟨hstale, hfresh⟩ := hsound
  have hnone : s.directory.active = [] := map_eq_nil_iff.mp hstale.symm
  refine h.goTo (by simp [hph]) ?_ ⟨hnone, rfl, hfresh⟩
  simp [State.rest, State.goTo, hph, Phase.writes, Phase.pending, After.pending, hnone, eventsOf]

variable {after : After E}

theorem Sound.removeOldest (h : Sound format s)
    (hph : s.phase = .pruning (rotation :: rest) after) :
    Sound format
      { s with
        directory := s.directory.removeCompleted rotation
        phase := .pruning rest after } := by
  have hsound := h.phase
  rw [hph] at hsound
  obtain ⟨hact, hexcess, hafter⟩ := hsound
  rw [excess_eq h.completed_ascending] at hexcess
  have hasc := h.completed_ascending
  rcases hcomp : s.directory.completed with _ | ⟨oldest, files⟩
  · rw [hcomp] at hexcess
    simp at hexcess
  · rw [hcomp] at hexcess hasc
    have hmany : retainedCompletedRotations ≤ files.length := by
      by_contra hfew
      have hzero : (oldest :: files).length - retainedCompletedRotations = 0 := by
        simp only [length_cons]
        omega
      rw [hzero] at hexcess
      simp at hexcess
    have hcnt : (oldest :: files).length - retainedCompletedRotations =
        (files.length - retainedCompletedRotations) + 1 := by
      simp only [length_cons]
      omega
    rw [hcnt, take_succ_cons, map_cons] at hexcess
    obtain ⟨rfl, rfl⟩ := List.cons.inj hexcess
    obtain ⟨holdest, hfiles⟩ := pairwise_cons.mp hasc
    have hrem : (s.directory.removeCompleted oldest.rotation).completed = files := by
      rw [Directory.removeCompleted, hcomp, filter_cons_of_neg (by simp), filter_eq_self]
      intro file hmem
      simpa using (holdest file hmem).ne'
    have hsuf : files.IsSuffix s.published := by
      have hret := h.retained
      rw [hcomp] at hret
      exact (suffix_cons _ _).trans hret
    obtain ⟨before, lost, hevs, hlost⟩ := h.own
    have hgone : lost = [] := hlost (by simp [hph])
    have hownAfter : ({ s with
        directory := s.directory.removeCompleted oldest.rotation
        phase := .pruning ((files.take
          (files.length - retainedCompletedRotations)).map Artifact.rotation)
          after } : State E C B).ownCompleted =
        files.filter fun file => s.first ≤ file.rotation := by
      simp only [State.ownCompleted, hrem]
    have hrest : ({ s with
        directory := s.directory.removeCompleted oldest.rotation
        phase := .pruning ((files.take
          (files.length - retainedCompletedRotations)).map Artifact.rotation)
          after } : State E C B).rest = s.rest := by
      simp [State.rest, hph, Phase.writes, Phase.pending, Directory.removeCompleted]
    refine ⟨h.whole, h.ascending, ?_, ?_, h.single, h.small, ?_, ?_, ?_, ?_⟩
    · rw [hrem]
      exact hsuf
    · rw [hrem]
      exact (min_le_left _ _).trans hmany
    · have hroom := h.room
      rw [hcomp, length_cons] at hroom
      rw [hrem]
      change files.length + s.directory.active.length ≤ _
      omega
    · refine ⟨hact, ?_, hafter⟩
      rw [excess_eq (by rw [hrem]; exact hfiles), hrem]
    · by_cases hown : s.first ≤ oldest.rotation
      · refine ⟨before ++ oldest.events, [], ?_, fun _ => rfl⟩
        rw [hownAfter, hrest, hevs, hgone]
        simp [State.ownCompleted, hcomp, hown, eventsOf]
      · refine ⟨before, [], ?_, fun _ => rfl⟩
        rw [hownAfter, hrest, hevs, hgone]
        simp [State.ownCompleted, hcomp, hown]
    · rw [hrest, hrem]
      have hord := h.ordered
      rw [hcomp] at hord
      refine List.Sublist.trans ?_ hord
      simp [eventsOf]

theorem completed_le_of_excess (h : Sound format s) (hexcess : s.directory.excess = []) :
    s.directory.completed.length ≤ retainedCompletedRotations := by
  rw [excess_eq h.completed_ascending] at hexcess
  rcases take_eq_nil_iff.mp (map_eq_nil_iff.mp hexcess) with hzero | hnil
  · omega
  · simp [hnil]

theorem fresh_activeRotationAfter (h : Sound format s) (hnumb : Numbered s.directory)
    {newest : Artifact E} (hnew : s.published.getLast? = some newest)
    (hfst : s.first ≤ newest.rotation) :
    Fresh s.first s.published s.directory.activeRotationAfter := by
  have hlast : s.directory.completed.getLast? = some newest := by
    obtain ⟨pruned, hpub⟩ := h.retained
    have hne : s.directory.completed ≠ [] := by
      intro hnil
      have hpos : 0 < s.published.length := by
        rw [length_pos_iff]
        rintro hemp
        rw [hemp] at hnew
        cases hnew
      have henough := h.enough
      rw [hnil] at henough
      have : 0 < retainedCompletedRotations := by decide
      simp only [length_nil] at henough
      omega
    rw [← hpub, getLast?_append_of_ne_nil _ hne] at hnew
    exact hnew
  have hmem := mem_of_getLast? hlast
  have hnext : s.directory.activeRotationAfter = newest.rotation + 1 := by
    rw [Directory.activeRotationAfter, completedArtifacts_eq h.completed_ascending, hlast]
    exact saturatingAddU64_one (hnumb newest (mem_append_left _ hmem))
  rw [hnext]
  refine ⟨hfst.trans (le_succ _), ?_⟩
  intro file hfile
  obtain ⟨earlier, hearl⟩ := getLast?_eq_some_iff.mp hnew
  have hasc := h.ascending
  rw [Ascending, hearl, pairwise_append] at hasc
  rw [hearl] at hfile
  rcases mem_append.mp hfile with hmem | hmem
  · exact (hasc.2.2 file hmem newest (by simp)).trans (lt_succ_self _)
  · obtain rfl := mem_singleton.mp hmem
    exact lt_succ_self _

theorem Sound.pruned (h : Sound format s) (hnumb : Numbered s.directory)
    (hph : s.phase = .pruning [] after) :
    Sound format (s.afterPruning after) := by
  have hsound := h.phase
  rw [hph] at hsound
  obtain ⟨hact, hexcess, hafter⟩ := hsound
  have hfew := completed_le_of_excess h hexcess.symm
  cases after with
  | start rotation =>
    refine h.goTo (by simp [hph]) ?_ ⟨hact, hfew, hafter⟩
    simp [State.rest, State.goTo, hph, Phase.writes, Phase.pending, After.pending, hact, eventsOf]
  | reopen pending =>
    obtain ⟨newest, hnew, hfst⟩ := hafter
    have hnext := fresh_activeRotationAfter h hnumb hnew hfst
    refine h.goTo (by simp [hph]) ?_ ⟨hact, hfew, hnext⟩
    simp [State.rest, State.goTo, hph, Phase.writes, Phase.pending, After.pending, hact, eventsOf]
  | stop => exact h.goDown

end CollideOScope.Flight
