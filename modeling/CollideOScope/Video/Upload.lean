import CollideOScope.Support.Machine
import CollideOScope.Support.Words
import Mathlib.Data.List.Perm.Basic

/-!
# Validation of uploads

Uploads wait a few turns for their validation.  A full queue of faults gives up
its oldest detail for a new fault, but never an out-of-memory error.
-/

namespace CollideOScope.Video

inductive UploadValidationFaultKind
  | validation
  | internal
  | outOfMemory
  | deadline
  deriving DecidableEq

structure UploadAttribution where
  (uploadId layerId payloadId sourceGeneration renderGeneration : ℕ)

structure UploadValidationFault where
  attribution : UploadAttribution
  kind : UploadValidationFaultKind
  message : String

def UploadValidationFault.isTerminal (fault : UploadValidationFault) : Bool :=
  fault.kind = .outOfMemory

structure ScopedUploadErrors where
  (validation internal outOfMemory : Option String)

structure PendingUploadValidation where
  attribution : UploadAttribution
  label : String
  dimensions : ℕ × ℕ
  submittedTurn : ℕ

structure UploadValidationEpoch where
  pending : List PendingUploadValidation := []
  faults : List UploadValidationFault := []
  (turn submitted completed invalidations faultCount : ℕ := 0)

def maxPendingUploadValidations : ℕ := 2

def maxUploadValidationFaults : ℕ := 4

def maxUploadValidationTurns : ℕ := 4

namespace UploadValidationEpoch

variable (s : UploadValidationEpoch)

/-- `push_pending`; the clock is read for the message of a refusal. -/
def pushPending (pending : PendingUploadValidation) (pendingAgeMicros : ℕ) :
    Except String UploadValidationEpoch :=
  if maxPendingUploadValidations ≤ s.pending.length then
    let pendingAgeTurns := s.turn - (s.pending.head?.elim s.turn (·.submittedTurn))
    .error (s!"upload validation queue is full ({s.pending.length}/" ++
      s!"{maxPendingUploadValidations}; oldest {pendingAgeTurns} turns / " ++
      s!"{pendingAgeMicros} us)")
  else
    .ok { s with
      submitted := saturatingAddU64 s.submitted 1
      pending := s.pending ++ [pending] }

def queueFault (faults : List UploadValidationFault)
    (fault : UploadValidationFault) : List UploadValidationFault :=
  if faults.length = maxUploadValidationFaults then
    match faults.findIdx? (! ·.isTerminal) with
    | some index => faults.eraseIdx index ++ [fault]
    | none => faults
  else faults ++ [fault]

def recordFault (fault : UploadValidationFault) : UploadValidationEpoch :=
  { s with
    faultCount := saturatingAddU64 s.faultCount 1
    invalidations := if s.faults.length = maxUploadValidationFaults then
      saturatingAddU64 s.invalidations 1 else s.invalidations
    faults := queueFault s.faults fault }

/-- The faults of an upload that has resolved, in the order of their recording. -/
def scopedFaults (pending : PendingUploadValidation) (errors : ScopedUploadErrors) :
    List UploadValidationFault :=
  [(UploadValidationFaultKind.outOfMemory, errors.outOfMemory),
    (.internal, errors.internal), (.validation, errors.validation)].filterMap
    fun (kind, error) => error.map fun error =>
      ⟨pending.attribution, kind, s!"could not validate {pending.label} upload at " ++
        s!"{pending.dimensions.1}x{pending.dimensions.2}: {error}"⟩

def deadlineFault (pending : PendingUploadValidation) : UploadValidationFault :=
  ⟨pending.attribution, .deadline, s!"{pending.label} upload validation did not " ++
    s!"resolve within {maxUploadValidationTurns} event-loop turns"⟩

inductive UploadOutcome
  | completed
  | invalidated
  | deadline

variable (currentRenderGeneration : ℕ)
  (future : PendingUploadValidation → Option ScopedUploadErrors)

/-- What becomes of an upload, with its faults; `none` keeps it pending. -/
def outcome (turn : ℕ) (pending : PendingUploadValidation) :
    Option (UploadOutcome × List UploadValidationFault) :=
  if pending.attribution.renderGeneration ≠ currentRenderGeneration then some (.invalidated, [])
  else
    match future pending with
    | some errors => some (.completed, scopedFaults pending errors)
    | none =>
      if maxUploadValidationTurns ≤ turn - pending.submittedTurn then
        some (.deadline, [deadlineFault pending])
      else none

def count : UploadOutcome → UploadValidationEpoch
  | .completed => { s with completed := saturatingAddU64 s.completed 1 }
  | .invalidated => { s with invalidations := saturatingAddU64 s.invalidations 1 }
  | .deadline => s

/-- One turn of the loop of `poll`; the retained uploads are the pending ones. -/
def visit (s : UploadValidationEpoch) (pending : PendingUploadValidation) : UploadValidationEpoch :=
  match outcome currentRenderGeneration future s.turn pending with
  | some (outcome, faults) => faults.foldl recordFault (s.count outcome)
  | none => { s with pending := s.pending ++ [pending] }

/-- `poll`; `future` answers for the futures that are ready. -/
def poll : UploadValidationEpoch :=
  s.pending.foldl (visit currentRenderGeneration future)
    { s with turn := saturatingAddU64 s.turn 1, pending := [] }

def takeFault : Option UploadValidationFault × UploadValidationEpoch :=
  (s.faults.head?, { s with faults := s.faults.tail })

end UploadValidationEpoch

open List UploadValidationEpoch

/-- What becomes of the uploads, with their faults. -/
def endings (generation turn : ℕ) (future : PendingUploadValidation → Option ScopedUploadErrors)
    (pending : List PendingUploadValidation) :=
  pending.filterMap fun p => (outcome generation future turn p).map (p, ·)

/-- An epoch with the uploads that it accepted, those that left, the faults that
were recorded, and whether one of them tells of memory and was not taken. -/
structure UploadHistory where
  epoch : UploadValidationEpoch := {}
  accepted : List PendingUploadValidation := []
  left : List (PendingUploadValidation × UploadValidationEpoch.UploadOutcome) := []
  recorded : List UploadValidationFault := []
  outOfMemory : Bool := false

inductive UploadCall
  | pushPending (pending : PendingUploadValidation) (pendingAgeMicros : ℕ)
  | poll (currentRenderGeneration : ℕ)
    (future : PendingUploadValidation → Option ScopedUploadErrors)
  | takeFault

/-- An upload is submitted in the turn of its push; the turns do not saturate. -/
def uploadMachine : Machine UploadHistory UploadCall where
  start s := s = {}
  step s
    | .pushPending pending micros =>
      let pending := { pending with submittedTurn := s.epoch.turn }
      match s.epoch.pushPending pending micros with
      | .ok epoch => some { s with epoch, accepted := s.accepted ++ [pending] }
      | .error _ => some s
    | .poll generation future =>
      let ends := endings generation (s.epoch.turn + 1) future s.epoch.pending
      let faults := ends.flatMap (·.2.2)
      if s.epoch.turn < u64Max then
        some { s with
          epoch := s.epoch.poll generation future
          left := s.left ++ ends.map fun e => (e.1, e.2.1)
          recorded := s.recorded ++ faults
          outOfMemory := s.outOfMemory || faults.any (·.isTerminal) }
      else none
    | .takeFault =>
      let (fault, epoch) := s.epoch.takeFault
      some { s with
        epoch
        outOfMemory := s.outOfMemory && ! fault.any (·.isTerminal) }

section

variable {faults recorded : List UploadValidationFault}

theorem queueFault_spec (hle : faults.length ≤ maxUploadValidationFaults)
    (fault : UploadValidationFault) :
    (queueFault faults fault).length ≤ maxUploadValidationFaults ∧
      (queueFault faults fault).Sublist (faults ++ [fault]) ∧
      ((∃ f ∈ faults ++ [fault], f.isTerminal) → ∃ f ∈ queueFault faults fault, f.isTerminal) := by
  unfold queueFault
  split_ifs with hfull
  · split
    · rename_i index hindex
      obtain ⟨hlt, hnot, -⟩ := findIdx?_eq_some_iff_getElem.mp hindex
      have hlen := length_eraseIdx_add_one hlt
      refine ⟨by simp; omega, (eraseIdx_sublist ..).append_right _, ?_⟩
      rintro ⟨f, hf, hterm⟩
      rcases mem_append.mp hf with hf | hf
      · refine ⟨f, mem_append_left _ ?_, hterm⟩
        obtain ⟨i, hi, rfl⟩ := getElem_of_mem hf
        refine mem_eraseIdx_iff_getElem.mpr ⟨i, hi, ?_, rfl⟩
        rintro rfl
        simp [hterm] at hnot
      · exact ⟨f, mem_append_right _ hf, hterm⟩
    · rename_i hnone
      refine ⟨hle, sublist_append_left .., fun _ => ?_⟩
      obtain ⟨f, rest, rfl⟩ : ∃ f rest, faults = f :: rest :=
        exists_cons_of_length_pos (by rw [hfull]; decide)
      refine ⟨f, mem_cons_self, ?_⟩
      simpa using findIdx?_eq_none_iff.mp hnone f mem_cons_self
  · exact ⟨by simp; omega, .refl _, id⟩

theorem foldl_queueFault_spec (fs : List UploadValidationFault)
    (hle : faults.length ≤ maxUploadValidationFaults) :
    (fs.foldl queueFault faults).length ≤ maxUploadValidationFaults ∧
      (fs.foldl queueFault faults).Sublist (faults ++ fs) ∧
      ((∃ f ∈ faults ++ fs, f.isTerminal) → ∃ f ∈ fs.foldl queueFault faults, f.isTerminal) := by
  induction fs generalizing faults with
  | nil => simpa using hle
  | cons f fs ih =>
    obtain ⟨hlen, hsub, hterm⟩ := queueFault_spec hle f
    obtain ⟨hlen', hsub', hterm'⟩ := ih hlen
    refine ⟨hlen', hsub'.trans ?_, fun h => hterm' ?_⟩
    · simpa using hsub.append_right fs
    · obtain ⟨g, hg, hgt⟩ := h
      rw [append_cons, mem_append] at hg
      rcases hg with hg | hg
      · obtain ⟨g', hg', ht⟩ := hterm ⟨g, hg, hgt⟩
        exact ⟨g', mem_append_left _ hg', ht⟩
      · exact ⟨g, mem_append_right _ hg, hgt⟩

end

section

variable {s : UploadValidationEpoch} {generation : ℕ}
  {future : PendingUploadValidation → Option ScopedUploadErrors}

theorem foldl_recordFault (faults : List UploadValidationFault) :
    (faults.foldl recordFault s).pending = s.pending ∧
      (faults.foldl recordFault s).turn = s.turn ∧
      (faults.foldl recordFault s).faults = faults.foldl queueFault s.faults := by
  induction faults generalizing s with
  | nil => exact ⟨rfl, rfl, rfl⟩
  | cons fault faults ih => exact ih

theorem foldl_visit (pending : List PendingUploadValidation) :
    (pending.foldl (visit generation future) s).turn = s.turn ∧
      (pending.foldl (visit generation future) s).pending = s.pending ++
        pending.filter (outcome generation future s.turn · |>.isNone) ∧
      (pending.foldl (visit generation future) s).faults =
        ((endings generation s.turn future pending).flatMap (·.2.2)).foldl queueFault s.faults := by
  induction pending generalizing s with
  | nil => simp [endings]
  | cons p pending ih =>
    cases hp : outcome generation future s.turn p with
    | none =>
      obtain ⟨ht, hp', hf⟩ := ih (s := { s with pending := s.pending ++ [p] })
      simp [endings, visit, hp, ht, hp', hf]
    | some result =>
      obtain ⟨ht, hp', hf⟩ := ih (s := result.2.foldl recordFault (s.count result.1))
      obtain ⟨ht', hp'', hf'⟩ := foldl_recordFault result.2 (s := s.count result.1)
      have hsame : (s.count result.1).turn = s.turn ∧
          (s.count result.1).pending = s.pending ∧
          (s.count result.1).faults = s.faults := by
        cases result.1 <;> exact ⟨rfl, rfl, rfl⟩
      simp [endings, visit, hp, ht, hp', hf, ht', hp'', hf', hsame]

theorem poll_eq (hlt : s.turn < u64Max) :
    (s.poll generation future).turn = s.turn + 1 ∧
      (s.poll generation future).pending =
        s.pending.filter (outcome generation future (s.turn + 1) · |>.isNone) ∧
      (s.poll generation future).faults =
        ((endings generation (s.turn + 1) future s.pending).flatMap (·.2.2)).foldl
          queueFault s.faults := by
  rw [poll, saturatingAddU64_of_le hlt]
  exact foldl_visit ..

theorem endings_perm (pending : List PendingUploadValidation) (turn : ℕ) :
    ((endings generation turn future pending).map Prod.fst ++
      pending.filter (outcome generation future turn · |>.isNone)).Perm pending := by
  induction pending with
  | nil => rfl
  | cons p pending ih =>
    cases hp : outcome generation future turn p with
    | none => simpa [endings, hp] using perm_middle.trans (ih.cons p)
    | some _ => simpa [endings, hp] using ih.cons p

end

namespace UploadHistory

/-- Between any two calls both queues are bounded, every accepted upload has left
once or is pending in its order and in time, the faults keep their order, and an
out-of-memory fault stays until one is taken. -/
structure Sound (s : UploadHistory) : Prop where
  pending_le : s.epoch.pending.length ≤ maxPendingUploadValidations
  faults_le : s.epoch.faults.length ≤ maxUploadValidationFaults
  once : (s.left.map Prod.fst ++ s.epoch.pending).Perm s.accepted
  pending_order : s.epoch.pending.Sublist s.accepted
  young : ∀ p ∈ s.epoch.pending, p.submittedTurn ≤ s.epoch.turn ∧
    s.epoch.turn < p.submittedTurn + maxUploadValidationTurns
  faults_order : s.epoch.faults.Sublist s.recorded
  terminal : s.outOfMemory → ∃ f ∈ s.epoch.faults, f.isTerminal

theorem Sound.poll {s : UploadHistory} (h : s.Sound) {generation : ℕ}
    {future : PendingUploadValidation → Option ScopedUploadErrors} (hlt : s.epoch.turn < u64Max)
    {next : UploadHistory} (hstep : uploadMachine.step s (.poll generation future) = some next) :
    next.Sound := by
  simp only [uploadMachine, if_pos hlt] at hstep
  cases hstep
  obtain ⟨ht, hp, hf⟩ := @poll_eq s.epoch generation future hlt
  obtain ⟨hlen, hsub, hterm⟩ := foldl_queueFault_spec
    ((endings generation (s.epoch.turn + 1) future s.epoch.pending).flatMap (·.2.2))
    h.faults_le
  rw [← hf] at hlen hsub hterm
  have hkept : (s.epoch.poll generation future).pending.Sublist s.epoch.pending :=
    hp ▸ filter_sublist
  refine ⟨hkept.length_le.trans h.pending_le, hlen, ?_, hkept.trans h.pending_order,
    fun p hmem => ?_, hsub.trans (h.faults_order.append_right _), fun hor => ?_⟩
  · refine List.Perm.trans ?_ h.once
    simpa [hp, Function.comp_def] using
      (endings_perm s.epoch.pending (s.epoch.turn + 1)).append_left _
  · rw [hp, mem_filter] at hmem
    have := h.young p hmem.1
    have hstay := hmem.2
    simp only [outcome] at hstay
    simp only [ht]
    refine ⟨by omega, ?_⟩
    by_contra hge
    have hlate : maxUploadValidationTurns ≤ s.epoch.turn + 1 - p.submittedTurn := by omega
    simp only [hlate, if_true] at hstay
    split_ifs at hstay with hgen
    · cases hstay
    · split at hstay <;> cases hstay
  · refine hterm ?_
    rcases Bool.or_eq_true_iff.mp hor with hold | hnew
    · obtain ⟨f, hmem, hterm⟩ := h.terminal hold
      exact ⟨f, mem_append_left _ hmem, hterm⟩
    · obtain ⟨f, hmem, hterm⟩ := any_eq_true.mp hnew
      exact ⟨f, mem_append_right _ hmem, hterm⟩

theorem Sound.step {s next : UploadHistory} (h : s.Sound) {call : UploadCall}
    (hstep : uploadMachine.step s call = some next) : next.Sound := by
  cases call with
  | pushPending pending micros =>
    by_cases hfull : maxPendingUploadValidations ≤ s.epoch.pending.length
    · simp only [uploadMachine, pushPending, if_pos hfull] at hstep
      cases hstep
      exact h
    · simp only [uploadMachine, pushPending, if_neg hfull] at hstep
      cases hstep
      refine ⟨by simp; omega, h.faults_le, ?_, h.pending_order.append_right _, ?_,
        h.faults_order, h.terminal⟩
      · simpa using h.once.append_right _
      · intro p hp
        rcases mem_append.mp hp with hp | hp
        · exact h.young p hp
        · obtain rfl := mem_singleton.mp hp
          simp [maxUploadValidationTurns]
  | poll generation future =>
    by_cases hlt : s.epoch.turn < u64Max
    · exact h.poll hlt hstep
    · simp only [uploadMachine, if_neg hlt] at hstep
      cases hstep
  | takeFault =>
    cases hstep
    refine ⟨h.pending_le, ?_, h.once, h.pending_order, h.young,
      (tail_sublist _).trans h.faults_order, ?_⟩
    · have := h.faults_le
      simp
      omega
    · intro hopen
      simp only [Bool.and_eq_true] at hopen ⊢
      obtain ⟨f, hf, hterm⟩ := h.terminal hopen.1
      cases hfaults : s.epoch.faults with
      | nil => simp [hfaults] at hf
      | cons first rest =>
        simp only [hfaults] at hf hopen ⊢
        rcases mem_cons.mp hf with rfl | hf
        · simp [hterm] at hopen
        · exact ⟨f, hf, hterm⟩

end UploadHistory

end CollideOScope.Video
