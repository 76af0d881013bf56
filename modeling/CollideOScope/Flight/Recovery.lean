import CollideOScope.Flight.Steps
import Mathlib.Algebra.Order.BigOperators.Group.List

/-!
# The life of one rotation

A rotation is created, headed, filled, marked, synced and renamed.  Each write
leaves the text of the file what the next phase expects, and the reserve for the
marker is never spent on events.
-/

namespace CollideOScope.Flight

open Nat Option List Artifact State Phase

variable {E C B : Type} {format : RecorderFormat E C B} {s t : State E C B}

@[simp]
theorem bytes_write (file : Artifact E) (bytes : Bytes) :
    (file.write bytes).bytes = file.bytes ++ bytes := by
  simp [Artifact.write, Artifact.bytes]

@[simp]
theorem bytes_append (file : Artifact E) (queued : E) (bytes : Bytes) :
    (file.append queued bytes).bytes = file.bytes ++ bytes := by
  simp [Artifact.append, Artifact.write, Artifact.bytes]

@[simp]
theorem bytes_sync (file : Artifact E) : file.sync.bytes = file.bytes := by
  simp [sync, bytes]

@[simp]
theorem bytes_created (rotation : ℕ) : (created rotation : Artifact E).bytes = [] := rfl

variable {pending : Option (PendingEvent E)} {rotation : ℕ}

theorem Sound.create (h : Sound format s) (hph : s.phase = .creating rotation pending) :
    Sound format (s.create rotation pending) := by
  have hsound := h.phase
  rw [hph] at hsound
  obtain ⟨hact, hfew, hfresh⟩ := hsound
  have hcreated : s.create rotation pending =
      { s with
        directory := ⟨s.directory.completed, [.created rotation]⟩
        phase := .heading rotation pending } := by
    simp [State.create, Directory.create, Directory.activeFile, hact]
  rw [hcreated]
  refine h.move rfl rfl rfl rfl rfl ⟨rfl, hfew, hfresh⟩ (le_refl _) ?_ ?_ ?_ ?_
  · intro file hmem
    obtain rfl := mem_singleton.mp hmem
    exact Nat.zero_le _
  · exact Nat.add_le_add_right hfew 1
  · simp [State.rest, hph, Phase.writes, Phase.pending, eventsOf, hact, created]
  · simp [hph]

theorem Sound.head (h : Sound format s) (hph : s.phase = .heading rotation pending) (build : B) :
    Sound format (s.head format rotation pending build) := by
  have hsound := h.phase
  rw [hph] at hsound
  obtain ⟨hact, hfew, hfresh⟩ := hsound
  simp only [State.head]
  split_ifs with hlarge
  · exact h.goDown
  · rw [writeActive_of_only rotation hact rfl]
    · refine h.write _ _ hact (by simp [hph]) ?_ ?_ ?_
      · simp only [bytes_write, bytes_created, nil_append]
        omega
      · simp [State.rest, hph, Phase.writes, Phase.pending, eventsOf, hact, Artifact.write]
      · refine ⟨hfresh, _, ⟨rfl, rfl, hfew, rfl, build, s.cache, ?_⟩, ?_⟩
        · simp [RecorderFormat.eventLines, Artifact.write, Artifact.created, bytes, headerLine]
        · simp
    · exact fun _ => rfl

variable {file : RotationFile}

theorem Sound.opened (h : Sound format s) (hph : s.phase = .syncingHead file pending) :
    Sound format (s.opened file pending) := by
  have hsound := h.phase
  rw [hph] at hsound
  obtain ⟨hfresh, active, hwrite, hlen⟩ := hsound
  obtain ⟨build, snapshots, htext⟩ := hwrite.text
  have hsync : Writing format ⟨s.directory.completed, [active.sync]⟩ file active.sync [] :=
    ⟨rfl, hwrite.number, hwrite.few, hwrite.counted, build, snapshots,
      by rw [bytes_sync]; exact htext⟩
  have hsmall := h.small active (by simp [hwrite.only])
  unfold State.opened
  rw [writeActive_of_only file.rotation hwrite.only hwrite.number]
  · refine h.write _ _ hwrite.only (by simp [hph]) (by simpa using hsmall) ?_ ?_
    · cases pending <;>
        simp [rest, hph, writes, pending, eventsOf, hwrite.only, sync]
    · cases pending with
      | none | some pending => exact ⟨hfresh, _, hsync, by simpa using hlen⟩
  · exact fun _ => rfl

theorem Sound.append {pending : PendingEvent E} (h : Sound format s)
    (hph : s.phase = .appending file pending) :
    Sound format (s.append format file pending) := by
  have hsound := h.phase
  rw [hph] at hsound
  obtain ⟨hfresh, active, hwrite, hlen⟩ := hsound
  obtain ⟨build, snapshots, htext⟩ := hwrite.text
  simp only [State.append]
  split_ifs with hfits hmay
  · have hcap : file.bytesWritten + (format.encodeLine (.event pending.queued)).length +
        completeRecordReserve ≤ format.perRotationByteCap := by
      simpa [RotationFile.canAppend] using hfits
    rw [writeActive_of_only file.rotation hwrite.only hwrite.number]
    · have hwrit := h.write
        (active.append pending.queued (format.encodeLine (.event pending.queued)))
        (.ready ⟨file.rotation, file.bytesWritten +
          (format.encodeLine (.event pending.queued)).length,
          file.eventCount + 1⟩) hwrite.only (by simp [hph]) ?_ ?_ ?_
      · exact { hwrit with }
      · rw [bytes_append, length_append, ← hlen]
        omega
      · simp [State.rest, hph, Phase.writes, Phase.pending, eventsOf, hwrite.only, Artifact.append]
      · refine ⟨hfresh, _, ⟨rfl, hwrite.number, hwrite.few, ?_, build, snapshots, ?_⟩, ?_⟩
        · simp [Artifact.append, hwrite.counted]
        · rw [bytes_append, htext]
          simp [Artifact.append, RecorderFormat.eventLines]
        · rw [bytes_append, length_append, hlen]
    · exact fun _ => rfl
  · refine h.goTo (by simp [hph]) ?_ ⟨trivial, hfresh, active, hwrite, hlen⟩
    simp [State.rest, State.goTo, hph, Phase.writes, Phase.pending, After.pending]
  · exact h.goDown

variable {after : After E}

theorem Sound.complete (h : Sound format s)
    (hph : s.phase = .completing file after) (droppedFull : ℕ) :
    Sound format (s.complete format file after droppedFull) := by
  have hsound := h.phase
  rw [hph] at hsound
  obtain ⟨hfol, hfresh, active, hwrite, hlen⟩ := hsound
  obtain ⟨build, snapshots, htext⟩ := hwrite.text
  simp only [State.complete]
  split_ifs with hlarge
  · exact h.goDown
  · rw [writeActive_of_only file.rotation hwrite.only hwrite.number]
    · refine h.write _ _ hwrite.only (by simp [hph]) ?_ ?_ ?_
      · rw [bytes_write, length_append, ← hlen]
        omega
      · simp [State.rest, hph, Phase.writes, Phase.pending, eventsOf, hwrite.only, Artifact.write]
      · refine ⟨hfol, _, hfresh, droppedFull, rfl, hwrite.number,
        hwrite.few, hwrite.counted, build, snapshots, ?_⟩
        rw [bytes_write, htext, hwrite.counted]
        simp [Artifact.write]
    · exact fun _ => rfl

theorem Sound.synced (h : Sound format s) (hph : s.phase = .syncing file after) :
    Sound format (s.writeActive file.rotation sync (.renaming file after)) := by
  have hsound := h.phase
  rw [hph] at hsound
  obtain ⟨hfol, active, hfresh, droppedFull, hwrite⟩ := hsound
  obtain ⟨build, snapshots, htext⟩ := hwrite.text
  have hsmall := h.small active (by simp [hwrite.only])
  rw [writeActive_of_only file.rotation hwrite.only hwrite.number]
  · refine h.write _ _ hwrite.only (by simp [hph]) (by simpa using hsmall) ?_ ?_
    · simp [rest, hph, writes, pending, eventsOf, hwrite.only, sync]
    · exact ⟨hfol, active.sync, ⟨hfresh, droppedFull, rfl, hwrite.number,
        hwrite.few, hwrite.counted, build, snapshots,
        by rw [bytes_sync]; exact htext⟩, rfl⟩
  · exact fun _ => rfl

theorem whole_of_marked {active : Artifact E} (h : Sound format s)
    (hmarked : MarkedFile format s file active)
    (hdurable : active.unsynced = []) : Whole format active := by
  obtain ⟨-, droppedFull, hwrite⟩ := hmarked
  obtain ⟨build, snapshots, htext⟩ := hwrite.text
  refine ⟨hdurable, h.small active (by simp [hwrite.only]), build, snapshots, droppedFull, ?_⟩
  rw [htext, hwrite.number]

theorem Sound.rename (h : Sound format s) (hph : s.phase = .renaming file after) :
    Sound format (s.rename file after) := by
  have hsound := h.phase
  rw [hph] at hsound
  obtain ⟨hfol, active, hmarked, hdurable⟩ := hsound
  have hwhole := whole_of_marked h hmarked hdurable
  obtain ⟨hfresh, droppedFull, hwrite⟩ := hmarked
  rw [← hwrite.number] at hfresh
  have hpublish : s.directory.publish active = ⟨s.directory.completed ++ [active], []⟩ := by
    have hother : ∀ other ∈ s.directory.completed, ¬other.rotation = active.rotation := by
      intro other hmem
      exact (hfresh.above other (h.mem_published hmem)).ne
    simpa [Directory.publish, Directory.removeCompleted,
      Directory.removeActive, hwrite.only] using hother
  have hrename : s.rename file after =
      ({ s with
        directory := ⟨s.directory.completed ++ [active], []⟩
        published := s.published ++ [active] } : State E C B).prune after := by
    rw [State.rename, activeFile_of_only hwrite.only hwrite.number]
    simp only [hpublish]
  obtain ⟨before, lost, hevs, hlost⟩ := h.own
  have hgone : lost = [] := hlost (by simp [hph])
  have hrest : s.rest = active.events ++ after.pending := by
    simp [rest, hph, writes, pending, hwrite.only, eventsOf]
  rw [hrename]
  refine ⟨?_, ?_, ?_, ?_, Nat.zero_le _, by simp [State.prune, State.goTo], ?_,
    ⟨rfl, rfl, ?_⟩, ⟨before, [], ?_, fun _ => rfl⟩, ?_⟩
  · intro other hmem
    rcases mem_append.mp hmem with hmem | hmem
    · exact h.whole other hmem
    · obtain rfl := mem_singleton.mp hmem
      exact hwhole
  · change Ascending (s.published ++ [active])
    rw [Ascending, pairwise_append]
    refine ⟨h.ascending, pairwise_singleton _ _, ?_⟩
    intro other hother last hlast
    obtain rfl := mem_singleton.mp hlast
    exact hfresh.above other hother
  · obtain ⟨pruned, hpub⟩ := h.retained
    refine ⟨pruned, ?_⟩
    change pruned ++ (s.directory.completed ++ [active]) = s.published ++ [active]
    rw [← append_assoc, hpub]
  · have henough := h.enough
    simp only [State.prune, State.goTo, length_append, length_singleton]
    omega
  · simpa [State.prune, State.goTo] using hwrite.few
  · cases after with
    | start rotation => exact hfol.elim
    | reopen pending => exact ⟨active, getLast?_concat, hfresh.own⟩
    | stop => trivial
  · rw [hrest, hgone] at hevs
    rw [State.prune, State.goTo]
    simpa [ownCompleted, rest, writes, pending, eventsOf, hfresh.own] using hevs
  · have hord := h.ordered
    rw [hrest] at hord
    simpa [State.prune, State.goTo, State.rest, Phase.writes, Phase.pending, eventsOf] using hord

/-!
## What a forced termination leaves

The recorder is a machine whose labels also crash and restart it.
-/

variable {file : Artifact E}

theorem bytes_torn_of_durable (h : file.unsynced = []) (bytes : Bytes) :
    file.torn bytes = file := by
  cases file
  simp_all [Artifact.torn]

section

variable (h : Sound format s)
include h

theorem Sound.crash (bytes : Bytes) : Sound format (s.crash bytes) := by
  have hcomp : (s.directory.torn bytes).completed = s.directory.completed := by
    refine (map_congr_left ?_).trans (map_id _)
    intro file hmem
    exact bytes_torn_of_durable (h.whole file (h.mem_published hmem)).durable bytes
  have hdown := h.goDown
  have hlen : (s.directory.torn bytes).active.length =
      s.directory.active.length := length_map _
  obtain ⟨before, lost, hevs, -⟩ := hdown.own
  have hown : (s.crash bytes).ownCompleted = (s.goTo .down).ownCompleted := by
    simp only [State.ownCompleted, State.crash, State.goTo, hcomp]
    rfl
  refine ⟨h.whole, h.ascending, ?_, ?_, ?_, ?_, ?_, trivial,
    ⟨before, lost, ?_, fun hne => absurd rfl hne⟩, ?_⟩
  · simp only [State.crash, hcomp]
    exact h.retained
  · simp only [State.crash, hcomp]
    exact h.enough
  · simp only [State.crash, hlen]
    exact h.single
  · intro file hmem
    obtain ⟨other, hother, rfl⟩ := mem_map.mp hmem
    have hsmall := h.small other hother
    simp only [Artifact.torn, Artifact.bytes, append_nil,
      length_append, length_take] at hsmall ⊢
    omega
  · simp only [State.crash, hcomp, hlen]
    exact h.room
  · rw [hown]
    exact hevs
  · simp only [State.crash, hcomp]
    exact hdown.ordered

theorem exists_completed_ge (hfile : file ∈ s.published) :
    ∃ other ∈ s.directory.completed, file.rotation ≤ other.rotation := by
  obtain ⟨pruned, hpub⟩ := h.retained
  have hasc := h.ascending
  rw [Ascending, ← hpub, pairwise_append] at hasc
  rw [← hpub] at hfile
  rcases mem_append.mp hfile with hmem | hmem
  · have hsome : 0 < s.directory.completed.length := by
      have henough := h.enough
      have hpos := length_pos_of_mem hfile
      have htwo : 0 < retainedCompletedRotations := by decide
      rw [hpub] at hpos
      omega
    obtain ⟨other, hother⟩ := exists_mem_of_length_pos hsome
    exact ⟨other, hother, (hasc.2.2 file hmem other hother).le⟩
  · exact ⟨file, hmem, le_rfl⟩

theorem Sound.restart (hnumb : Numbered s.directory) (build : B) :
    Sound format (s.restart format build) := by
  have habove : ∀ file ∈ s.directory.completed,
      file.rotation < saturatingAddU64 s.directory.highest 1 :=
    fun file hmem => lt_next_of_mem hnumb (mem_append_left _ hmem)
  have hnone : (s.restart format build).ownCompleted = [] := by
    rw [State.ownCompleted, filter_eq_nil_iff]
    intro file hmem hown
    exact not_le.mpr (habove file hmem) (of_decide_eq_true hown)
  have hrest : (s.restart format build).rest = [] := rfl
  refine ⟨h.whole, h.ascending, h.retained, h.enough, h.single, h.small, h.room,
    ⟨rfl, le_rfl, ?_⟩, ⟨[], [], ?_, fun _ => rfl⟩, ?_⟩
  · intro file hfile
    obtain ⟨other, hother, hle⟩ := exists_completed_ge h hfile
    exact hle.trans_lt (habove other hother)
  · rw [hnone, hrest]
    rfl
  · rw [hrest, append_nil]
    exact (sublist_append_left _ _).trans h.ordered

theorem Sound.dequeue {file : RotationFile} (hph : s.phase = .ready file)
    (queued : E) (late : Bool) : Sound format (s.dequeue file queued late) := by
  have hopen := h.phase
  rw [hph] at hopen
  obtain ⟨before, lost, hevs, hlost⟩ := h.own
  have hgone : lost = [] := hlost (by simp [hph])
  have hrest : (s.dequeue file queued late).rest = s.rest ++ [queued] := by
    cases late <;>
      simp [State.rest, State.dequeue, hph, Phase.writes, Phase.pending, After.pending]
  have hown : (s.dequeue file queued late).ownCompleted = s.ownCompleted := rfl
  refine ⟨h.whole, h.ascending, h.retained, h.enough, h.single, h.small, h.room,
    ?_, ⟨before, [], ?_, fun _ => rfl⟩, ?_⟩
  · cases late with
    | true => exact ⟨trivial, hopen⟩
    | false => exact hopen
  · rw [hrest, hown]
    change s.dequeued ++ [queued] = _
    rw [hevs, hgone]
    simp
  · rw [hrest, ← append_assoc]
    exact h.ordered.append (List.Sublist.refl _)

theorem Sound.proceed {droppedFull : ℕ} (hnumb : Numbered s.directory)
    (hstep : s.proceed format droppedFull = some t) : Sound format t := by
  rw [State.proceed] at hstep
  split at hstep
  · cases hstep
  · next hph =>
      cases hstep
      exact h.discard hph
  · next hph =>
      cases hstep
      exact h.discarded hph
  · next hph =>
      cases hstep
      exact h.removeOldest hph
  · next hph =>
      cases hstep
      exact h.pruned hnumb hph
  · next hph =>
      cases hstep
      exact h.create hph
  · next hph =>
      obtain ⟨build, -, rfl⟩ := map_eq_some_iff.mp hstep
      exact h.head hph build
  · next hph =>
      cases hstep
      exact h.opened hph
  · next hph =>
      cases hstep
      exact h.append hph
  · cases hstep
  · next hph =>
      cases hstep
      exact h.complete hph droppedFull
  · next hph =>
      cases hstep
      exact h.synced hph
  · next hph =>
      cases hstep
      exact h.rename hph

end

variable {label : Label E B}

theorem Sound.step (h : Sound format s) (hnumb : Numbered s.directory)
    (hstep : s.step format label = some t) : Sound format t := by
  cases label with simp only [State.step] at hstep
  | restart build =>
    split at hstep
    · cases hstep
      exact h.restart hnumb build
    · cases hstep
  | dequeue queued late =>
    split at hstep
    · next hph =>
        cases hstep
        exact h.dequeue hph queued late
    · cases hstep
  | timeout | disconnect =>
    split at hstep
    · next hph =>
        cases hstep
        have hopen := h.phase
        rw [hph] at hopen
        refine h.goTo (by simp [hph]) ?_ ⟨trivial, hopen⟩
        simp [State.rest, State.goTo, hph, Phase.writes, Phase.pending, After.pending]
    · cases hstep
  | proceed droppedFull => exact h.proceed hnumb hstep
  | crash bytes =>
    cases hstep
    exact h.crash bytes

def NumberedStep (s : State E C B) (_ : Label E B) : Prop := Numbered s.directory

theorem sound_of_reachable (h : (recorder format).ReachableBy NumberedStep s) : Sound format s := by
  apply h.invariant
  · rintro _ rfl
    exact Sound.initial
  · intro s label t hs hnumb hstep
    exact hs.step hnumb hstep

@[simp]
theorem published_writeActive (s : State E C B) (rotation : ℕ)
    (change : Artifact E → Artifact E) (phase : Phase E) :
    (s.writeActive rotation change phase).published = s.published := by
  rw [State.writeActive]
  split <;> rfl

theorem published_step (hstep : s.step format label = some t) :
    s.published.IsPrefix t.published := by
  have hsame : ∀ u : State E C B, some u = some t → u.published = s.published →
      s.published.IsPrefix t.published := by
    intro u heq hu
    cases heq
    exact hu.symm ▸ prefix_refl s.published
  cases label with
  | restart build | dequeue queued late | timeout | disconnect =>
    simp only [State.step] at hstep
    split at hstep
    · exact hsame _ hstep rfl
    · cases hstep
  | crash bytes =>
    cases hstep
    exact prefix_refl _
  | proceed droppedFull =>
    simp only [State.step, State.proceed] at hstep
    split at hstep
    · cases hstep
    · exact hsame _ hstep rfl
    · exact hsame _ hstep rfl
    · exact hsame _ hstep rfl
    · refine hsame _ hstep ?_
      unfold State.afterPruning
      split <;> rfl
    · refine hsame _ hstep ?_
      unfold State.create
      split <;> rfl
    · obtain ⟨build, -, rfl⟩ := map_eq_some_iff.mp hstep
      refine hsame _ rfl ?_
      simp only [State.head]
      split_ifs <;> simp [State.goTo]
    · exact hsame _ hstep (published_writeActive s _ _ _)
    · refine hsame _ hstep ?_
      simp only [State.append]
      split_ifs <;> simp [State.goTo]
    · cases hstep
    · refine hsame _ hstep ?_
      simp only [State.complete]
      split_ifs <;> simp [State.goTo]
    · exact hsame _ hstep (published_writeActive s _ _ _)
    · cases hstep
      unfold State.rename
      split
      · exact prefix_refl _
      · exact prefix_append _ _

theorem published_run {G : State E C B → Label E B → Prop} (h : (recorder format).Run G s t) :
    s.published.IsPrefix t.published := by
  induction h with
  | refl => exact prefix_refl _
  | tail run guard step ih => exact ih.trans (published_step step)

def newerThan (directory : Directory E) (rotation : ℕ) : List (Artifact E) :=
  directory.completed.filter fun file => rotation < file.rotation

theorem retained_or_older (h : Sound format s) (hfile : file ∈ s.published) :
    file ∈ s.directory.completed ∨
      retainedCompletedRotations ≤ (newerThan s.directory file.rotation).length := by
  obtain ⟨pruned, hpub⟩ := h.retained
  have hasc := h.ascending
  have henough := h.enough
  rw [Ascending, ← hpub, pairwise_append] at hasc
  rw [← hpub] at hfile henough
  rcases mem_append.mp hfile with hmem | hmem
  · right
    have hall : newerThan s.directory file.rotation = s.directory.completed := by
      rw [newerThan, filter_eq_self]
      intro other hother
      simpa using hasc.2.2 file hmem other hother
    have hpos := length_pos_of_mem hmem
    rw [hall]
    rw [length_append] at henough
    omega
  · exact .inl hmem

theorem totalBytes_le (h : Sound format s) : s.directory.totalBytes ≤ format.totalByteCap := by
  have hsmall : ∀ n ∈ (s.directory.completed ++ s.directory.active).map
      (fun file => file.bytes.length), n ≤ format.perRotationByteCap := by
    intro n hn
    obtain ⟨file, hfile, rfl⟩ := mem_map.mp hn
    rcases mem_append.mp hfile with hmem | hmem
    · exact (h.whole file (h.mem_published hmem)).bounded
    · exact h.small file hmem
  have hcnt : ((s.directory.completed ++ s.directory.active).map
      (fun file => file.bytes.length)).length ≤ retainedCompletedRotations + 1 := by
    simpa using h.room
  calc
    s.directory.totalBytes ≤
        ((s.directory.completed ++ s.directory.active).map
          (fun file => file.bytes.length)).length • format.perRotationByteCap :=
      sum_le_card_nsmul _ _ hsmall
    _ ≤ (retainedCompletedRotations + 1) • format.perRotationByteCap := mul_le_mul_right _ hcnt
    _ ≤ format.totalByteCap := mul_div_le _ _

/-- What the recorder leaves at any point.  Numbers of completed files only go
up, and a rotation is opened above all of them.  The events of a running
process that are retained are the latest it has dequeued, without a gap;
those of all processes keep their order, each once at most. -/
structure EvidenceSurvives (format : RecorderFormat E C B) (s : State E C B) : Prop where
  whole : ∀ file ∈ s.directory.completed, Whole format file
  ascending : Ascending s.published
  latest : s.directory.completed.IsSuffix s.published
  opened_above : ∀ rotation pending, s.phase = .creating rotation pending →
    ∀ file ∈ s.published, file.rotation < rotation
  contiguous : s.phase ≠ .down → (eventsOf s.ownCompleted ++ s.rest).IsSuffix s.dequeued
  ordered : (eventsOf s.directory.completed ++ s.rest).Sublist s.history
  bounded : s.directory.totalBytes ≤ format.totalByteCap

/-- At every point of every run the evidence is there, and from there on a
completed file stays as it is until two newer ones are completed. -/
theorem flight_evidence_survives (h : (recorder format).ReachableBy NumberedStep s) :
    EvidenceSurvives format s ∧
      ∀ t, (recorder format).Run NumberedStep s t →
        ∀ file ∈ s.directory.completed,
          file ∈ t.directory.completed ∨
            retainedCompletedRotations ≤ (newerThan t.directory file.rotation).length := by
  have hsound := sound_of_reachable h
  refine ⟨⟨?_, hsound.ascending, hsound.retained, ?_, ?_, hsound.ordered, totalBytes_le hsound⟩, ?_⟩
  · intro file hmem
    exact hsound.whole file (hsound.mem_published hmem)
  · intro rotation pending hphase
    have hcreating := hsound.phase
    rw [hphase] at hcreating
    exact hcreating.2.2.above
  · intro hrunning
    obtain ⟨before, lost, hevents, hlost⟩ := hsound.own
    refine ⟨before, ?_⟩
    rw [hevents, hlost hrunning, append_nil, append_assoc]
  · intro t hrun file hmem
    obtain ⟨s₀, hstart, hprior⟩ := h
    have hafter := sound_of_reachable ⟨s₀, hstart, hprior.trans hrun⟩
    exact retained_or_older hafter ((published_run hrun).subset (hsound.mem_published hmem))

def sampleFormat : RecorderFormat ℕ Unit Unit where
  encodeLine _ := [0x7b, 0x0a]
  emptyCache := ()
  observe _ _ := ()
  totalByteCap := 3 * 4096

/-- The file operations of a start that finds no active file. -/
def startLabels : List (Label ℕ Unit) := .restart () :: replicate 5 (.proceed 0)

def summary (files : List (Artifact ℕ)) : List (ℕ × List ℕ) :=
  files.map fun file => (file.rotation, file.events)

instance (s : State E C B) (label : Label E B) : Decidable (NumberedStep s label) :=
  inferInstanceAs (Decidable (∀ file ∈ _, _))

theorem flight_evidence_survives_sampleFormat :
    ∃ s, EvidenceSurvives sampleFormat s ∧ summary s.directory.completed = [(1, [7])] := by
  have hrun : (((recorder sampleFormat).restrict NumberedStep).exec
      (.initial sampleFormat) (startLabels ++
        [.dequeue 7 false, .proceed 0, .timeout] ++ replicate 7 (.proceed 0))).map
      (fun s => summary s.directory.completed) = some [(1, [7])] := by
    decide +kernel
  obtain ⟨s, hexec, hsummary⟩ := map_eq_some_iff.mp hrun
  have hstart : ((recorder sampleFormat).restrict NumberedStep).start (.initial sampleFormat) := rfl
  exact ⟨s, (flight_evidence_survives (Machine.ReachableBy.of_restrict
    (Machine.reachable_of_exec hstart hexec))).1, hsummary⟩

/-- A second termination gives the number of a discarded rotation again, and
the events of an interrupted rotation are a gap in what is retained. -/
theorem termination_forgets_active :
    (∃ s t, (recorder sampleFormat).Reachable s ∧
      (recorder sampleFormat).FreeRun s t ∧
      summary s.directory.active = [(1, [7])] ∧
      summary t.directory.active = [(1, [])]) ∧
    ∃ s, (recorder sampleFormat).Reachable s ∧ s.phase.writes = true ∧
      ¬(eventsOf s.directory.completed ++ s.rest).IsInfix s.history := by
  have hstart : (recorder sampleFormat).start (.initial sampleFormat) := rfl
  constructor
  · have hrun : (((recorder sampleFormat).exec (.initial sampleFormat)
        (startLabels ++ [.dequeue 7 false, .proceed 0])).bind fun s =>
        ((recorder sampleFormat).exec s ([.crash [], .restart (), .proceed 0,
          .crash []] ++ startLabels)).map fun t =>
          (summary s.directory.active, summary t.directory.active)) =
        some ([(1, [7])], [(1, [])]) := by
      decide +kernel
    obtain ⟨s, hs, hrest⟩ := bind_eq_some_iff.mp hrun
    obtain ⟨t, ht, hsummary⟩ := map_eq_some_iff.mp hrest
    obtain ⟨hbefore, hafter⟩ := Prod.mk.inj hsummary
    exact ⟨s, t, Machine.reachable_of_exec hstart hs, Machine.freeRun_of_exec ht, hbefore, hafter⟩
  · have hrun : ((recorder sampleFormat).exec (.initial sampleFormat)
        (startLabels ++ [.dequeue 7 false, .proceed 0, .timeout] ++ replicate 7 (.proceed 0) ++
          [.dequeue 8 false, .proceed 0, .crash [], .restart (), .proceed 0] ++
          replicate 5 (.proceed 0) ++
          [.dequeue 9 false, .proceed 0])).map (fun s =>
          (s.phase.writes, eventsOf s.directory.completed ++ s.rest,
            s.history)) = some (true, [7, 9], [7, 8, 9]) := by
      decide +kernel
    obtain ⟨s, hs, hsummary⟩ := map_eq_some_iff.mp hrun
    obtain ⟨hwrites, hlists⟩ := Prod.mk.inj hsummary
    obtain ⟨hretained, hhistory⟩ := Prod.mk.inj hlists
    refine ⟨s, Machine.reachable_of_exec hstart hs, hwrites, ?_⟩
    rw [hretained, hhistory]
    decide

end CollideOScope.Flight
