import CollideOScope.Support.Machine
import CollideOScope.Support.Words

/-!
# Publication of a finished capture

A finished capture is published under two final names, the media and its
report, by hard links from the staged temporaries.  Cancel and the worker meet
in one atomic gate.  The worker is modelled twice: as the sequential function
of the source, and as a machine that executes one file operation at a time
while Cancel calls arrive between them.  Every file operation can fail.
-/

namespace CollideOScope.Recorder

open Option List Function

/-- The values of `PUBLICATION_*`. -/
inductive PublicationState where
  | open | cancelled | committing | published

structure PublicationGate where
  state : PublicationState

namespace PublicationGate

def requestCancel (gate : PublicationGate) : PublicationGate × Bool :=
  match gate.state with
  | .open => (⟨.cancelled⟩, true)
  | .cancelled => (gate, true)
  | .committing => (gate, false)
  | .published => (gate, false)

def claim (gate : PublicationGate) : Except String PublicationGate :=
  match gate.state with
  | .open => .ok ⟨.committing⟩
  | .cancelled => .error "capture cancelled before final publication"
  | _ => .error "capture final publication was already claimed"

def markPublished (_ : PublicationGate) : PublicationGate := ⟨.published⟩

end PublicationGate

abbrev Files := String → Option Bytes

/-- `std::fs::hard_link`, which never replaces a name. -/
def hardLink (fault : Option String) (original link : String)
    (files : Files) : Except String Files :=
  match fault, files original, files link with
  | some error, _, _ => .error error
  | none, none, _ => .error "No such file or directory (os error 2)"
  | none, some _, some _ => .error "File exists (os error 17)"
  | none, some content, none => .ok (update files link (some content))

def removeFile (fault : Option String) (path : String) (files : Files) : Except String Files :=
  match fault, files path with
  | some error, _ => .error error
  | none, none => .error "No such file or directory (os error 2)"
  | none, some _ => .ok (update files path none)

/-- A removal whose result the source discards. -/
def discardFile (fault : Option String) (path : String) (files : Files) : Files :=
  match removeFile fault path files with
  | .error _ => files
  | .ok files => files

/-- The names of one capture.  The final names differ because the report name
extends the media name, and a temporary is created under a fresh name. -/
structure ArtifactPair where
  (mediaTemp mediaFinal reportTemp reportFinal : String)
  finals : mediaFinal ≠ reportFinal
  temps : mediaTemp ≠ reportTemp
  media : mediaTemp ≠ mediaFinal ∧ mediaTemp ≠ reportFinal
  report : reportTemp ≠ mediaFinal ∧ reportTemp ≠ reportFinal

/-- The errors that the operating system answers with, one for each file
operation of the transaction in the order of the source. -/
structure CommitFaults where
  linkReport : Option String
  unlinkReport : Option String
  (linkMedia unlinkMedia removeReport removeMediaTemp : Option String)

def CommitFaults.none : CommitFaults := ⟨.none, .none, .none, .none, .none, .none⟩

def linkError (finalPath error : String) : String :=
  s!"atomic no-replace commit '{finalPath}' failed: {error}"

def unlinkError (error : String) : String := s!"remove committed capture temp: {error}"

/-- `atomic_commit_no_replace`, where a file can have two names. -/
def atomicCommitNoReplace (link unlink : Option String)
    (temp finalPath : String) (files : Files) : Files × Except String Unit :=
  match hardLink link temp finalPath files with
  | .error error => (files, .error (linkError finalPath error))
  | .ok files =>
    match removeFile unlink temp files with
    | .error error => (files, .error (unlinkError error))
    | .ok files => (files, .ok ())

def commitArtifactPairNoReplace (faults : CommitFaults) (pair : ArtifactPair)
    (files : Files) : Files × Except String Unit :=
  match atomicCommitNoReplace faults.linkReport faults.unlinkReport
      pair.reportTemp pair.reportFinal files with
  | (files, .error error) => (files, .error error)
  | (files, .ok ()) =>
    match atomicCommitNoReplace faults.linkMedia faults.unlinkMedia
        pair.mediaTemp pair.mediaFinal files with
    | (files, .error error) =>
      let files := discardFile faults.removeReport pair.reportFinal files
      let files := discardFile faults.removeMediaTemp pair.mediaTemp files
      (files, .error error)
    | (files, .ok ()) => (files, .ok ())

def commitArtifactPairLinearized (gate : PublicationGate)
    (faults : CommitFaults) (pair : ArtifactPair) (files : Files) :
    PublicationGate × Files × Except String Unit :=
  match gate.claim with
  | .error error => (gate, files, .error error)
  | .ok gate =>
    match commitArtifactPairNoReplace faults pair files with
    | (files, .error error) => (gate, files, .error error)
    | (files, .ok ()) => (gate.markPublished, files, .ok ())

/-- The statement that the worker executes next. -/
inductive CommitStage where
  | claiming | linkingReport | unlinkingReport | linkingMedia | unlinkingMedia
  | removingReport (error : String)
  | removingMediaTemp (error : String)
  | marking
  | returned (result : Except String Unit)

/-- One answer of `request_cancel`, and whether the claim had succeeded. -/
structure CancelCall where
  (afterClaim won : Bool)

/-- The gate, the files and the worker, with the answers of Cancel and the
final names that the worker has linked. -/
structure Publication where
  gate : PublicationGate
  files : Files
  worker : CommitStage
  claimed : Bool
  cancels : List CancelCall
  linked : List String

inductive PublicationLabel where
  | cancel | worker
  deriving DecidableEq

namespace Publication

def initial (files : Files) : Publication where
  gate := ⟨.open⟩
  files := files
  worker := .claiming
  claimed := false
  cancels := []
  linked := []

def cancel (s : Publication) : Publication :=
  { s with
    gate := s.gate.requestCancel.1
    cancels := s.cancels ++ [⟨s.claimed, s.gate.requestCancel.2⟩] }

variable (faults : CommitFaults) (pair : ArtifactPair)

def work (s : Publication) : Option Publication :=
  match s.worker with
  | .claiming =>
    match s.gate.claim with
    | .error error => some { s with worker := .returned (.error error) }
    | .ok gate => some { s with gate := gate, claimed := true, worker := .linkingReport }
  | .linkingReport =>
    match hardLink faults.linkReport pair.reportTemp pair.reportFinal
        s.files with
    | .error error =>
      some { s with worker := .returned (.error (linkError pair.reportFinal error)) }
    | .ok files =>
      some { s with
        files := files
        worker := .unlinkingReport
        linked := s.linked ++ [pair.reportFinal] }
  | .unlinkingReport =>
    match removeFile faults.unlinkReport pair.reportTemp s.files with
    | .error error => some { s with worker := .returned (.error (unlinkError error)) }
    | .ok files => some { s with files := files, worker := .linkingMedia }
  | .linkingMedia =>
    match hardLink faults.linkMedia pair.mediaTemp pair.mediaFinal
        s.files with
    | .error error => some { s with worker := .removingReport (linkError pair.mediaFinal error) }
    | .ok files =>
      some { s with
        files := files
        worker := .unlinkingMedia
        linked := s.linked ++ [pair.mediaFinal] }
  | .unlinkingMedia =>
    match removeFile faults.unlinkMedia pair.mediaTemp s.files with
    | .error error => some { s with worker := .removingReport (unlinkError error) }
    | .ok files => some { s with files := files, worker := .marking }
  | .removingReport error =>
    some { s with
      files := discardFile faults.removeReport pair.reportFinal s.files
      worker := .removingMediaTemp error }
  | .removingMediaTemp error =>
    some { s with
      files := discardFile faults.removeMediaTemp pair.mediaTemp s.files
      worker := .returned (.error error) }
  | .marking =>
    some { s with
      gate := s.gate.markPublished
      worker := .returned (.ok ()) }
  | .returned _ => none

def step (s : Publication) : PublicationLabel → Option Publication
  | .cancel => some s.cancel
  | .worker => s.work faults pair

/-- One commit among any number of Cancel calls. -/
def machine (files : Files) : Machine Publication PublicationLabel where
  start s := s = initial files
  step s label := s.step faults pair label

end Publication

section

variable {faults : CommitFaults} {pair : ArtifactPair}

/-- The part of the transaction that follows the report. -/
def commitMedia (faults : CommitFaults) (pair : ArtifactPair)
    (files : Files) : Files × Except String Unit :=
  match atomicCommitNoReplace faults.linkMedia faults.unlinkMedia
      pair.mediaTemp pair.mediaFinal files with
  | (files, .error error) =>
    let files := discardFile faults.removeReport pair.reportFinal files
    let files := discardFile faults.removeMediaTemp pair.mediaTemp files
    (files, .error error)
  | (files, .ok ()) => (files, .ok ())

def CommitStage.rest (faults : CommitFaults) (pair : ArtifactPair)
    (files : Files) : CommitStage → Files × Except String Unit
  | .claiming => commitArtifactPairNoReplace faults pair files
  | .linkingReport => commitArtifactPairNoReplace faults pair files
  | .unlinkingReport =>
    match removeFile faults.unlinkReport pair.reportTemp files with
    | .error error => (files, .error (unlinkError error))
    | .ok files => commitMedia faults pair files
  | .linkingMedia => commitMedia faults pair files
  | .unlinkingMedia =>
    match removeFile faults.unlinkMedia pair.mediaTemp files with
    | .error error =>
      let files := discardFile faults.removeReport pair.reportFinal files
      let files := discardFile faults.removeMediaTemp pair.mediaTemp files
      (files, .error (unlinkError error))
    | .ok files => (files, .ok ())
  | .removingReport error =>
    let files := discardFile faults.removeReport pair.reportFinal files
    let files := discardFile faults.removeMediaTemp pair.mediaTemp files
    (files, .error error)
  | .removingMediaTemp error =>
    (discardFile faults.removeMediaTemp pair.mediaTemp files, .error error)
  | .marking => (files, .ok ())
  | .returned result => (files, result)

/-- The gate that a stage after the claim leaves to Cancel. -/
def CommitStage.gateState : CommitStage → PublicationState
  | .returned (.ok ()) => .published
  | _ => .committing

theorem CommitStage.gateState_cases (stage : CommitStage) :
    stage.gateState = .committing ∨ stage.gateState = .published := by
  unfold gateState
  split
  · exact .inr rfl
  · exact .inl rfl

/-- What holds of every state of a commit from the files `start`. -/
structure Publication.Sound (faults : CommitFaults) (pair : ArtifactPair)
    (start : Files) (s : Publication) : Prop where
  unclaimed : s.claimed = false →
    s.files = start ∧ s.linked = [] ∧
      ((s.worker = .claiming ∧ (s.gate.state = .open ∨ s.gate.state = .cancelled)) ∨
        ∃ error, s.worker = .returned (.error error) ∧ s.gate.state = .cancelled)
  claimed : s.claimed = true →
    s.worker ≠ .claiming ∧ s.gate.state = s.worker.gateState ∧
      s.worker.rest faults pair s.files = commitArtifactPairNoReplace faults pair start
  lost : ∀ call ∈ s.cancels, call.afterClaim = true → call.won = false
  won : ∀ call ∈ s.cancels, call.won = true → s.gate.state = .cancelled

namespace Publication

variable {start : Files} {s t : Publication}

theorem sound_initial (files : Files) : (initial files).Sound faults pair files where
  unclaimed _ := ⟨rfl, rfl, .inl ⟨rfl, .inl rfl⟩⟩
  claimed h := by cases h
  lost call h := by cases h
  won call h := by cases h

section

variable (h : s.Sound faults pair start)
include h

open PublicationGate (requestCancel)

theorem Sound.requestCancel_of_claimed (hclaim : s.claimed = true) :
    s.gate.requestCancel = (s.gate, false) := by
  have hgate := (h.claimed hclaim).2.1
  obtain hstage | hstage := s.worker.gateState_cases
  · rw [requestCancel, hgate, hstage]
  · rw [requestCancel, hgate, hstage]

theorem Sound.requestCancel_of_unclaimed (hclaim : s.claimed = false) :
    s.gate.requestCancel = (⟨.cancelled⟩, true) := by
  obtain ⟨-, -, ⟨-, hopen | hcanc⟩ | ⟨error, -, hcanc⟩⟩ := h.unclaimed hclaim
  · rw [requestCancel, hopen]
  · rw [requestCancel, hcanc]
    simp [← hcanc]
  · rw [requestCancel, hcanc]
    simp [← hcanc]

theorem Sound.cancel : s.cancel.Sound faults pair start := by
  cases hclaim : s.claimed with
  | true =>
    have hgate := h.requestCancel_of_claimed hclaim
    refine ⟨fun hfalse => ?_, fun _ => ?_, ?_, ?_⟩
    · rw [Publication.cancel, hclaim] at hfalse
      cases hfalse
    · rw [Publication.cancel, hgate]
      exact h.claimed hclaim
    · intro call hcall hafter
      rw [Publication.cancel, hgate] at hcall
      obtain hearl | hnew := mem_append.mp hcall
      · exact h.lost call hearl hafter
      · rw [mem_singleton.mp hnew]
    · intro call hcall hwon
      rw [Publication.cancel, hgate] at hcall ⊢
      obtain hearl | hnew := mem_append.mp hcall
      · exact h.won call hearl hwon
      · rw [mem_singleton.mp hnew] at hwon
        cases hwon
  | false =>
    have hgate := h.requestCancel_of_unclaimed hclaim
    obtain ⟨hfiles, hlinked, hstage⟩ := h.unclaimed hclaim
    refine ⟨fun _ => ⟨hfiles, hlinked, ?_⟩, fun htrue => ?_, ?_, ?_⟩
    · rw [Publication.cancel, hgate]
      obtain ⟨hworker, -⟩ | ⟨error, hworker, -⟩ := hstage
      · exact .inl ⟨hworker, .inr rfl⟩
      · exact .inr ⟨error, hworker, rfl⟩
    · rw [Publication.cancel, hclaim] at htrue
      cases htrue
    · intro call hcall hafter
      obtain hearl | hnew := mem_append.mp hcall
      · exact h.lost call hearl hafter
      · rw [mem_singleton.mp hnew, hclaim] at hafter
        cases hafter
    · intro call _ _
      rw [Publication.cancel, hgate]

theorem Sound.claim (hworker : s.worker = .claiming)
    (hstep : s.work faults pair = some t) : t.Sound faults pair start := by
  have hclaim : s.claimed = false := by
    cases htrue : s.claimed with
    | false => rfl
    | true => exact absurd hworker (h.claimed htrue).1
  obtain ⟨hfiles, hlinked, ⟨-, hgate⟩ | ⟨error, hret, -⟩⟩ := h.unclaimed hclaim
  · obtain hopen | hcanc := hgate
    · rw [work, hworker] at hstep
      simp only [PublicationGate.claim, hopen] at hstep
      cases hstep
      refine ⟨fun hfalse => (by cases hfalse), fun _ => ⟨by simp, rfl, ?_⟩, h.lost, ?_⟩
      · simp only [CommitStage.rest, hfiles]
      · intro call hcall hwon
        have := h.won call hcall hwon
        rw [hopen] at this
        cases this
    · rw [work, hworker] at hstep
      simp only [PublicationGate.claim, hcanc] at hstep
      cases hstep
      exact ⟨fun _ => ⟨hfiles, hlinked, .inr ⟨_, rfl, hcanc⟩⟩,
        fun htrue => (by rw [hclaim] at htrue; cases htrue), h.lost, h.won⟩
  · rw [hworker] at hret
    cases hret

theorem Sound.advance (hclaim : s.claimed = true) (ht : t.claimed = true)
    (hworker : t.worker ≠ .claiming) (hgate : t.gate.state = t.worker.gateState)
    (hrest : t.worker.rest faults pair t.files = s.worker.rest faults pair s.files)
    (hcancels : t.cancels = s.cancels) : t.Sound faults pair start := by
  refine ⟨fun hfalse => ?_, fun _ => ⟨hworker, hgate, ?_⟩, ?_, ?_⟩
  · rw [ht] at hfalse
    cases hfalse
  · rw [hrest]
    exact (h.claimed hclaim).2.2
  · rw [hcancels]
    exact h.lost
  · intro call hcall hwon
    rw [hcancels] at hcall
    have hst := h.won call hcall hwon
    rw [(h.claimed hclaim).2.1] at hst
    obtain hstage | hstage := s.worker.gateState_cases
    · rw [hstage] at hst
      cases hst
    · rw [hstage] at hst
      cases hst

theorem Sound.work (hstep : s.work faults pair = some t) : t.Sound faults pair start := by
  cases hclaim : s.claimed with
  | false =>
    obtain ⟨-, -, ⟨hworker, -⟩ | ⟨error, hworker, -⟩⟩ := h.unclaimed hclaim
    · exact h.claim hworker hstep
    · rw [Publication.work, hworker] at hstep
      cases hstep
  | true =>
    have hgate := (h.claimed hclaim).2.1
    cases hworker : s.worker with rw [hworker] at hgate
    | claiming => exact absurd hworker (h.claimed hclaim).1
    | linkingReport | linkingMedia =>
      simp only [Publication.work, hworker] at hstep
      split at hstep <;> cases hstep
      all_goals
        rename_i hlink
        refine h.advance hclaim hclaim (by simp) hgate ?_ rfl
        simp only [hworker, CommitStage.rest, commitMedia,
          commitArtifactPairNoReplace, atomicCommitNoReplace, hlink]
      split <;> simp only [*]
    | unlinkingReport | unlinkingMedia =>
      simp only [Publication.work, hworker] at hstep
      split at hstep <;> cases hstep
      all_goals
        rename_i hunlink
        refine h.advance hclaim hclaim (by simp) hgate ?_ rfl
        simp only [hworker, CommitStage.rest, hunlink]
    | removingReport error | removingMediaTemp error =>
      simp only [Publication.work, hworker] at hstep
      cases hstep
      refine h.advance hclaim hclaim (by simp) hgate ?_ rfl
      simp only [hworker, CommitStage.rest]
    | marking =>
      simp only [Publication.work, hworker] at hstep
      cases hstep
      refine h.advance hclaim hclaim (by simp) rfl ?_ rfl
      simp only [hworker, CommitStage.rest]
    | returned result =>
      simp only [Publication.work, hworker] at hstep
      cases hstep

theorem Sound.step {label : PublicationLabel} (hstep : s.step faults pair label = some t) :
    t.Sound faults pair start := by
  cases label with
  | cancel =>
    cases hstep
    exact h.cancel
  | worker => exact h.work hstep

end

theorem sound_of_run (hrun : (machine faults pair start).FreeRun (initial start) s) :
    s.Sound faults pair start :=
  hrun.preserves (fun _ _ _ h _ hstep => h.step hstep) (sound_initial start)

theorem claimed_of_run (hrun : (machine faults pair start).FreeRun s t)
    (h : s.claimed = true) : t.claimed = true := by
  refine hrun.preserves (P := fun u => u.claimed = true) (fun u label v hu _ hstep => ?_) h
  cases label with
  | cancel =>
    cases hstep
    exact hu
  | worker =>
    replace hstep : u.work faults pair = some v := hstep
    unfold Publication.work at hstep
    repeat' split at hstep
    all_goals first
      | cases hstep; done
      | cases hstep
        first
          | exact hu
          | rfl

theorem unclaimed_of_run (hrun : (machine faults pair start).FreeRun s t)
    (hs : s.Sound faults pair start) (h : s.claimed = false)
    (hgate : s.gate.state = .cancelled) : t.claimed = false := by
  have hkept := hrun.preserves (P := fun u => u.Sound faults pair start ∧
    u.claimed = false ∧ u.gate.state = .cancelled) ?_ ⟨hs, h, hgate⟩
  · exact hkept.2.1
  rintro u label v ⟨hu, hunclaimed, hcanc⟩ - hstep
  refine ⟨hu.step hstep, ?_⟩
  cases label with
  | cancel =>
    cases hstep
    refine ⟨hunclaimed, ?_⟩
    rw [Publication.cancel, hu.requestCancel_of_unclaimed hunclaimed]
  | worker =>
    replace hstep : u.work faults pair = some v := hstep
    obtain ⟨-, -, ⟨hworker, -⟩ | ⟨error, hworker, -⟩⟩ := hu.unclaimed hunclaimed
    · simp only [Publication.work, hworker, PublicationGate.claim, hcanc] at hstep
      cases hstep
      exact ⟨hunclaimed, hcanc⟩
    · simp only [Publication.work, hworker] at hstep
      cases hstep

theorem claimed_iff_of_exec {labels : List PublicationLabel} {result : Except String Unit}
    (hrun : (machine faults pair start).exec (initial start) labels = some s)
    (hret : s.worker = .returned result) :
    s.claimed = false ↔ labels.head? = some .cancel := by
  cases labels with
  | nil =>
    cases hrun
    cases hret
  | cons label labels =>
    obtain ⟨t, hstep, hrest⟩ := bind_eq_some_iff.mp hrun
    have hfree := Machine.freeRun_of_exec hrest
    cases label with
    | cancel =>
      cases hstep
      have hfalse := unclaimed_of_run hfree (sound_initial start).cancel rfl rfl
      simp [hfalse]
    | worker =>
      cases hstep
      have htrue := claimed_of_run hfree rfl
      simp only [htrue, head?_cons]
      decide

end Publication

end

section

variable {faults : CommitFaults} {pair : ArtifactPair}
variable {files : Files} {content : Bytes}

/-- A link is made when nothing fails and the name is free. -/
def Links (fault : Option String) (finalPath : String) (files : Files) : Prop :=
  fault = none ∧ files finalPath = none

theorem atomicCommitNoReplace_cases (link unlink : Option String) {temp finalPath : String}
    (htemp : files temp = some content) (hne : temp ≠ finalPath) :
    (¬Links link finalPath files ∧ ∃ error,
      atomicCommitNoReplace link unlink temp finalPath files = (files, .error error)) ∨
    (Links link finalPath files ∧ unlink ≠ none ∧ ∃ error,
      atomicCommitNoReplace link unlink temp finalPath files =
        (update files finalPath (some content), .error error)) ∨
    (Links link finalPath files ∧ unlink = none ∧
      atomicCommitNoReplace link unlink temp finalPath files =
        (update (update files finalPath (some content)) temp none, .ok ())) := by
  unfold Links atomicCommitNoReplace hardLink
  cases link with
  | some error => exact .inl ⟨by simp, _, rfl⟩
  | none =>
    rw [htemp]
    cases hfinal : files finalPath with
    | some earlier => exact .inl ⟨by simp, _, rfl⟩
    | none =>
      have hkept : update files finalPath (some content) temp = some content := by
        rw [update_of_ne hne, htemp]
      cases unlink with
      | some error => exact .inr (.inl ⟨⟨rfl, rfl⟩, by simp, _, rfl⟩)
      | none =>
        refine .inr (.inr ⟨⟨rfl, rfl⟩, rfl, ?_⟩)
        simp only [removeFile, hkept]

variable {fault : Option String} {path : String}

theorem discardFile_of_ne {other : String} (hne : other ≠ path) :
    discardFile fault path files other = files other := by
  unfold discardFile removeFile
  cases fault with
  | some error => rfl
  | none =>
    cases files path with
    | none => rfl
    | some earlier => exact update_of_ne hne _ _

theorem discardFile_self (hpath : files path = some content) :
    discardFile fault path files path = if fault = none then none else some content := by
  unfold discardFile removeFile
  cases fault with
  | some error | none => simp [hpath]

/-- The property of a commit from `start` that ends in `files`. -/
structure AllOrNothing (pair : ArtifactPair) (media report : Bytes)
    (start files : Files) (result : Except String Unit) : Prop where
  published : result = .ok () →
    files pair.mediaFinal = some media ∧ files pair.reportFinal = some report
  refused : ∀ error, result = .error error →
    files pair.mediaFinal = start pair.mediaFinal ∧ files pair.reportFinal = start pair.reportFinal
  kept : ∀ path ∈ [pair.mediaFinal, pair.reportFinal], ∀ earlier,
    start path = some earlier → files path = some earlier

/-- No temporary resists its removal after its final name was linked, and the
roll back of the report goes through when it is needed. -/
def Unobstructed (faults : CommitFaults) (pair : ArtifactPair) (start : Files) : Prop :=
  Links faults.linkReport pair.reportFinal start →
    faults.unlinkReport = none ∧
      (Links faults.linkMedia pair.mediaFinal start → faults.unlinkMedia = none) ∧
      (¬Links faults.linkMedia pair.mediaFinal start → faults.removeReport = none)

variable {report media : Bytes}

theorem allOrNothing_media_iff {staged : Files} (hmedia : staged pair.mediaTemp = some media)
    (hrep : staged pair.reportFinal = some report) (hfree : files pair.reportFinal = none)
    (hfinal : staged pair.mediaFinal = files pair.mediaFinal) :
    AllOrNothing pair media report files (commitMedia faults pair staged).1
        (commitMedia faults pair staged).2 ↔
      (Links faults.linkMedia pair.mediaFinal files → faults.unlinkMedia = none) ∧
        (¬Links faults.linkMedia pair.mediaFinal files → faults.removeReport = none) := by
  have hsame : Links faults.linkMedia pair.mediaFinal staged ↔
      Links faults.linkMedia pair.mediaFinal files := by
    rw [Links, Links, hfinal]
  have hrolled (files' : Files) (hreport' : files' pair.reportFinal = some report) :
      discardFile faults.removeMediaTemp pair.mediaTemp
          (discardFile faults.removeReport pair.reportFinal files')
          pair.reportFinal =
        if faults.removeReport = none then none else some report := by
    rw [discardFile_of_ne pair.media.2.symm, discardFile_self hreport']
  have hleft (files' : Files) :
      discardFile faults.removeMediaTemp pair.mediaTemp
          (discardFile faults.removeReport pair.reportFinal files')
          pair.mediaFinal = files' pair.mediaFinal := by
    rw [discardFile_of_ne pair.media.1.symm, discardFile_of_ne pair.finals]
  unfold commitMedia
  obtain ⟨hlinks, error, heq⟩ | ⟨hlinks, hunlink, error, heq⟩ |
      ⟨hlinks, hunlink, heq⟩ :=
    atomicCommitNoReplace_cases faults.linkMedia faults.unlinkMedia hmedia pair.media.1
  · simp only [heq]
    rw [hsame] at hlinks
    refine ⟨fun h => ⟨fun h' => absurd h' hlinks, fun _ => ?_⟩, fun h => ?_⟩
    · have hrem := (h.refused error rfl).2
      rw [hrolled staged hrep, hfree] at hrem
      by_contra hfault
      rw [if_neg hfault] at hrem
      cases hrem
    · have hrem := hrolled staged hrep
      rw [if_pos (h.2 hlinks)] at hrem
      refine ⟨by simp, fun _ _ => ?_, ?_⟩
      · exact ⟨(hleft staged).trans hfinal, hrem.trans hfree.symm⟩
      · intro path hpath earlier hearl
        obtain rfl | hpath := mem_cons.mp hpath
        · exact (hleft staged).trans (hfinal.trans hearl)
        · rw [mem_singleton.mp hpath, hfree] at hearl
          cases hearl
  · simp only [heq]
    rw [hsame] at hlinks
    refine iff_of_false (fun h => ?_) fun h => hunlink (h.1 hlinks)
    have hkept := (h.refused error rfl).1
    rw [hleft, update_self, hlinks.2] at hkept
    cases hkept
  · simp only [heq]
    rw [hsame] at hlinks
    refine iff_of_true ⟨fun _ => ⟨?_, ?_⟩, by simp, ?_⟩ ⟨fun _ => hunlink, fun h => absurd hlinks h⟩
    · rw [update_of_ne pair.media.1.symm, update_self]
    · rw [update_of_ne pair.media.2.symm, update_of_ne pair.finals.symm, hrep]
    · intro path hpath earlier hearl
      obtain rfl | hpath := mem_cons.mp hpath
      · rw [hlinks.2] at hearl
        cases hearl
      · rw [mem_singleton.mp hpath, hfree] at hearl
        cases hearl

theorem allOrNothing_commit_iff (hmedia : files pair.mediaTemp = some media)
    (hrep : files pair.reportTemp = some report) :
    AllOrNothing pair media report files (commitArtifactPairNoReplace faults pair files).1
        (commitArtifactPairNoReplace faults pair files).2 ↔
      Unobstructed faults pair files := by
  unfold commitArtifactPairNoReplace Unobstructed
  obtain ⟨hlinks, error, heq⟩ | ⟨hlinks, hunlink, error, heq⟩ |
      ⟨hlinks, hunlink, heq⟩ :=
    atomicCommitNoReplace_cases faults.linkReport faults.unlinkReport hrep pair.report.2
  · simp only [heq]
    refine iff_of_true ⟨by simp, fun _ _ => ⟨rfl, rfl⟩, fun _ _ _ h => h⟩
      fun h => absurd h hlinks
  · simp only [heq]
    refine iff_of_false (fun h => ?_) fun h => hunlink (h hlinks).1
    have hfinal := (h.refused error rfl).2
    rw [update_self, hlinks.2] at hfinal
    cases hfinal
  · simp only [heq]
    rw [show (Links faults.linkReport pair.reportFinal files →
        faults.unlinkReport = none ∧ _) ↔ _ from
      ⟨fun h => (h hlinks).2, fun h _ => ⟨hunlink, h⟩⟩]
    apply allOrNothing_media_iff
    · rw [update_of_ne pair.temps, update_of_ne pair.media.2, hmedia]
    · rw [update_of_ne pair.report.2.symm, update_self]
    · exact hlinks.2
    · rw [update_of_ne pair.report.1.symm, update_of_ne pair.finals]

/-- What Cancel and the files show of a commit that has returned. -/
structure PublishedAtomically (pair : ArtifactPair) (media report : Bytes)
    (start : Files) (s : Publication) (result : Except String Unit) :
    Prop where
  cancelled : (∃ call ∈ s.cancels, call.won = true) → s.linked = [] ∧ s.files = start
  claimed : ∀ call ∈ s.cancels, call.afterClaim = true → call.won = false
  gate : result = .ok () → s.gate.state = .published
  files : AllOrNothing pair media report start s.files result

/-- A commit that has returned is atomic exactly when Cancel came first or no
file operation obstructed the roll back. -/
theorem publication_atomic_iff {pair : ArtifactPair} {faults : CommitFaults}
    {start : Files} {media report : Bytes} {labels : List PublicationLabel}
    {s : Publication} {result : Except String Unit}
    (hmedia : start pair.mediaTemp = some media)
    (hreport : start pair.reportTemp = some report)
    (hrun : (Publication.machine faults pair start).exec
      (Publication.initial start) labels = some s)
    (hreturned : s.worker = .returned result) :
    PublishedAtomically pair media report start s result ↔
      labels.head? = some .cancel ∨ Unobstructed faults pair start := by
  have hsound := Publication.sound_of_run (Machine.freeRun_of_exec hrun)
  have hfirst := Publication.claimed_iff_of_exec hrun hreturned
  cases hclaimed : s.claimed with
  | false =>
    obtain ⟨hfiles, hlinked, ⟨hworker, -⟩ | ⟨error, hworker, hgate⟩⟩ := hsound.unclaimed hclaimed
    · rw [hreturned] at hworker
      cases hworker
    · rw [hreturned] at hworker
      cases hworker
      refine iff_of_true ⟨fun _ => ⟨hlinked, hfiles⟩, hsound.lost,
        by simp, by simp, ?_, ?_⟩ (.inl (hfirst.mp hclaimed))
      · intro _ _
        rw [hfiles]
        exact ⟨rfl, rfl⟩
      · intro path _ earlier hearlier
        rw [hfiles, hearlier]
  | true =>
    obtain ⟨-, hgate, hrest⟩ := hsound.claimed hclaimed
    rw [hreturned] at hgate hrest
    have hnot : labels.head? ≠ some .cancel := by
      intro hhead
      rw [hfirst.mpr hhead] at hclaimed
      cases hclaimed
    rw [or_iff_right hnot, ← allOrNothing_commit_iff hmedia hreport, ← hrest]
    refine ⟨fun h => h.files, fun h => ⟨?_, hsound.lost, ?_, h⟩⟩
    · rintro ⟨call, hcall, hwon⟩
      have hcancelled := hsound.won call hcall hwon
      rw [hgate] at hcancelled
      obtain hstage | hstage := (CommitStage.returned result).gateState_cases
      · rw [hstage] at hcancelled
        cases hcancelled
      · rw [hstage] at hcancelled
        cases hcancelled
    · rintro rfl
      exact hgate

/-- A capture `clip.mp4` and its report, staged beside the final names. -/
def sampleArtifacts : ArtifactPair where
  mediaTemp := ".clip.mp4.recording.tmp"
  mediaFinal := "clip.mp4"
  reportTemp := ".clip.mp4.recording.json.recording-report.tmp"
  reportFinal := "clip.mp4.recording.json"
  finals := by decide
  temps := by decide
  media := by decide
  report := by decide

/-- The staged files in an otherwise empty directory. -/
def sampleStaged : Files := fun path =>
  if path = ".clip.mp4.recording.tmp" then some [1]
  else if path = ".clip.mp4.recording.json.recording-report.tmp" then some [2]
  else none

/-- Whether the worker has returned, and with `Ok`. -/
def Publication.succeeded (s : Publication) : Option Bool :=
  match s.worker with
  | .returned (.ok ()) => some true
  | .returned (.error _) => some false
  | _ => none

theorem Publication.succeeded_eq_some {s : Publication} {success : Bool}
    (h : s.succeeded = some success) :
    ∃ result, s.worker = .returned result ∧ (success = true ↔ result = .ok ()) := by
  unfold Publication.succeeded at h
  split at h
  · rename_i hworker
    cases h
    exact ⟨_, hworker, by simp⟩
  · rename_i error hworker
    cases h
    exact ⟨_, hworker, by simp⟩
  · cases h

/-- A Cancel call that arrives after the claim changes nothing. -/
theorem publication_atomic_iff_sampleArtifacts :
    ∃ s, (Publication.machine .none sampleArtifacts sampleStaged).exec
        (Publication.initial sampleStaged)
        [.worker, .worker, .cancel, .worker, .worker, .worker, .worker] = some s ∧
      PublishedAtomically sampleArtifacts [1] [2] sampleStaged s (.ok ()) := by
  have hends : ((Publication.machine .none sampleArtifacts sampleStaged).exec
      (Publication.initial sampleStaged) [.worker, .worker, .cancel, .worker,
        .worker, .worker, .worker]).map Publication.succeeded = some (some true) := by
    decide +kernel
  obtain ⟨s, hrun, hsuccess⟩ := map_eq_some_iff.mp hends
  obtain ⟨result, hreturned, hok⟩ := Publication.succeeded_eq_some hsuccess
  rw [hok.mp rfl] at hreturned
  refine ⟨s, hrun, (publication_atomic_iff (by decide +kernel)
    (by decide +kernel) hrun hreturned).mpr (.inr ?_)⟩
  exact fun _ => ⟨rfl, fun _ => rfl, fun _ => rfl⟩

/-- The report temporary cannot be removed after its final name was linked. -/
def sampleObstructed : CommitFaults :=
  { CommitFaults.none with unlinkReport := some "Operation not permitted (os error 1)" }

/-- The commit fails and leaves a report without its media. -/
theorem obstructed_commit_leaves_report :
    ¬∀ (pair : ArtifactPair) (faults : CommitFaults) (start : Files)
        (media report : Bytes) (labels : List PublicationLabel)
        (s : Publication) (result : Except String Unit),
      start pair.mediaTemp = some media →
      start pair.reportTemp = some report →
      (Publication.machine faults pair start).exec (Publication.initial start) labels = some s →
      s.worker = .returned result →
      PublishedAtomically pair media report start s result := by
  intro h
  have hends : ((Publication.machine sampleObstructed sampleArtifacts
      sampleStaged).exec (Publication.initial sampleStaged)
        [.worker, .worker, .worker]).map
          (fun s => (s.succeeded, s.files sampleArtifacts.reportFinal)) =
      some (some false, some [2]) := by
    decide +kernel
  obtain ⟨s, hrun, hs⟩ := map_eq_some_iff.mp hends
  obtain ⟨hsuccess, hfinal⟩ := Prod.mk.inj hs
  obtain ⟨result, hreturned, hok⟩ := Publication.succeeded_eq_some hsuccess
  have hatomic := h sampleArtifacts sampleObstructed sampleStaged [1] [2]
    [.worker, .worker, .worker] s result (by decide +kernel)
    (by decide +kernel) hrun hreturned
  cases hresult : result with
  | ok value => exact absurd (hok.mpr hresult) (by decide)
  | error error =>
    have hkept := (hatomic.files.refused error hresult).2
    rw [hfinal] at hkept
    exact absurd hkept (by decide +kernel)

end

end CollideOScope.Recorder
