import CollideOScope.Support.RingBuffer
import CollideOScope.Temporal.State

/-!
# The history ring

The images of recorded frames stand in the layers of one texture that is never
cleared.  The write index and the valid count of the temporal state turn it
into the ring of the recordings since the last reset of the history; a frame
that is discarded leaves neither.
-/

namespace CollideOScope.Temporal

open TemporalStateSnapshot List Nat

variable {S Image : Type}

/-- The temporal state, the layers of the texture and the images recorded since
the history was last cleared. -/
structure TemporalRing (S Image : Type) where
  state : TemporalState S
  layers : List (Option Image)
  recorded : List Image

/-- A frame with its image, which the host accepts or not, or a reset between
two frames. -/
inductive TemporalCall (Image : Type)
  | frame (params : TemporalParams) (input : TemporalFrameInput)
      (image : Image) (accepted : Bool)
  | reset (cause : TemporalResetCause)

def clearsHistory (params : TemporalParams) (input : TemporalFrameInput) : Bool :=
  input.freeze.programAdvances &&
    (eventResetDomains params.forFrameDelta.originals.reset input.events).cleanHistory

namespace TemporalRing

variable [Seconds S]

def new : TemporalRing S Image := ⟨.default, replicate temporalHistoryLen none, []⟩

def recordedBefore (ring : TemporalRing S Image) (params : TemporalParams)
    (input : TemporalFrameInput) : List Image :=
  if clearsHistory params input then [] else ring.recorded

def write (layers : List (Option Image)) (plan : TemporalFramePlan)
    (image : Image) : List (Option Image) :=
  plan.historyWriteTarget.elim layers fun target => layers.set target (some image)

/-- `none` when a frame is staged while another one is. -/
def perform (ring : TemporalRing S Image) : TemporalCall Image → Option (TemporalRing S Image)
  | .frame params input image accepted =>
    (ring.state.stageFrame params input).map fun (plan, staged) =>
      if accepted then
        { state := staged.commitStaged
          layers := write ring.layers plan image
          recorded := ring.recordedBefore params input ++
            plan.historyWriteTarget.toList.map fun _ => image }
      else { ring with state := staged.discardStaged }
  | .reset cause =>
    some { ring with
      state := ring.state.resetFor cause
      recorded := if (TemporalResetDomains.forCause cause).cleanHistory then []
        else ring.recorded }

end TemporalRing

namespace TemporalStateSnapshot

variable {state other : TemporalStateSnapshot S} {layers : List (Option Image)}
  {recorded : List Image}

/-- The layers as a ring buffer: the next slot is the layer that the next
recording writes. -/
def ringView (state : TemporalStateSnapshot S) (layers : List (Option Image)) :
    RingBuffer Image where
  slots := layers
  next := if state.historyValid = 0 then state.historyWrite
    else (state.historyWrite + 1) % temporalHistoryLen
  count := state.historyValid

structure Records (state : TemporalStateSnapshot S)
    (layers : List (Option Image)) (recorded : List Image) : Prop where
  write_lt : state.historyWrite < temporalHistoryLen
  holds : (state.ringView layers).Holds temporalHistoryLen recorded

theorem Records.valid_le (h : state.Records layers recorded) :
    state.historyValid ≤ temporalHistoryLen :=
  h.holds.count.trans_le (min_le_right _ _)

def SameRing (state other : TemporalStateSnapshot S) : Prop :=
  other.historyWrite = state.historyWrite ∧ other.historyValid = state.historyValid

theorem SameRing.trans {third : TemporalStateSnapshot S}
    (h : state.SameRing other) (h' : other.SameRing third) :
    state.SameRing third :=
  ⟨h'.1.trans h.1, h'.2.trans h.2⟩

theorem Records.congr (h : state.Records layers recorded)
    (hsame : state.SameRing other) : other.Records layers recorded := by
  obtain ⟨hlt, hholds⟩ := h
  obtain ⟨hwrite, hvalid⟩ := hsame
  refine ⟨hwrite ▸ hlt, ?_⟩
  rw [ringView, hwrite, hvalid]
  exact hholds

theorem recordHistoryFrame_write (state : TemporalStateSnapshot S) (layers : List (Option Image)) :
    state.recordHistoryFrame.historyWrite = (state.ringView layers).next := by
  simp only [recordHistoryFrame, ringView]
  by_cases hvalid : state.historyValid = 0
  · simp [hvalid]
  · simp [hvalid, pos_of_ne_zero hvalid]

theorem Records.recordHistoryFrame (h : state.Records layers recorded) (image : Image) :
    state.recordHistoryFrame.Records (layers.set state.recordHistoryFrame.historyWrite (some image))
      (recorded ++ [image]) := by
  have hnext := recordHistoryFrame_write state layers
  have hpush := h.holds.push (by decide) image
  refine ⟨?_, ?_⟩
  · rw [hnext, h.holds.next]
    exact mod_lt _ (by decide)
  · have hview : state.recordHistoryFrame.ringView
        (layers.set state.recordHistoryFrame.historyWrite (some image)) =
        (state.ringView layers).push image := by
      have hvalid : state.recordHistoryFrame.historyValid ≠ 0 := by
        simp [TemporalStateSnapshot.recordHistoryFrame, temporalHistoryLen]
      have hlen : layers.length = temporalHistoryLen := h.holds.length
      rw [ringView, if_neg hvalid, hnext, RingBuffer.push]
      simp [ringView, hlen, TemporalStateSnapshot.recordHistoryFrame]
    rw [hview]
    exact hpush

theorem advanceGardenHold_sameRing (state : TemporalStateSnapshot S)
    (garden : RefreshGardenParams) (ticks : ℕ) :
    state.SameRing (state.advanceGardenHold garden ticks).2 := by
  unfold advanceGardenHold
  dsimp only
  split_ifs <;> exact ⟨rfl, rfl⟩

theorem advanceScore_sameRing (state : TemporalStateSnapshot S)
    (score : CollisionScoreParams) (events : TemporalFrameEvents) :
    state.SameRing (state.advanceScore score events).2 := by
  unfold advanceScore
  dsimp only
  split_ifs <;> exact ⟨rfl, rfl⟩

theorem temporalHistoryLen_pos : 0 < temporalHistoryLen := by decide

variable [Seconds S]

theorem records_default :
    (default : TemporalStateSnapshot S).Records
      (replicate temporalHistoryLen (none : Option Image)) [] where
  write_lt := temporalHistoryLen_pos
  holds := RingBuffer.holds_empty temporalHistoryLen

theorem Records.clearHistory (h : state.Records layers recorded) :
    state.clearHistory.Records layers [] where
  write_lt := temporalHistoryLen_pos
  holds := ⟨h.holds.length, rfl, rfl, fun j hj => absurd hj (not_lt_zero j)⟩

theorem Records.applyResetValues (h : state.Records layers recorded)
    (domains : TemporalResetDomains) :
    (state.applyResetValues domains).Records layers
      (if domains.cleanHistory then [] else recorded) := by
  have hclr : (if domains.cleanHistory then state.clearHistory
      else state).Records layers (if domains.cleanHistory then [] else recorded) := by
    cases domains.cleanHistory with
    | true => exact h.clearHistory
    | false => exact h
  refine hclr.congr ?_
  simp only [TemporalStateSnapshot.applyResetValues]
  split_ifs <;> exact ⟨rfl, rfl⟩

theorem Records.applyEventResets (h : state.Records layers recorded)
    (params : TemporalParams) (input : TemporalFrameInput) :
    (state.applyEventResets params.forFrameDelta.originals input).Records layers
      (if clearsHistory params input then [] else recorded) := by
  rw [TemporalStateSnapshot.applyEventResets, clearsHistory]
  cases input.freeze.programAdvances with
  | false => exact h
  | true =>
    have hreset := h.applyResetValues (eventResetDomains
      params.forFrameDelta.originals.reset input.events)
    rw [if_pos rfl, Bool.true_and]
    refine hreset.congr ?_
    dsimp only
    split <;> exact ⟨rfl, rfl⟩

theorem historyTicksForDelta_sameRing (state : TemporalStateSnapshot S) (deltaSeconds : F32) :
    state.SameRing (state.historyTicksForDelta deltaSeconds).2 := by
  unfold historyTicksForDelta
  dsimp only
  split_ifs <;> exact ⟨rfl, rfl⟩

theorem stageAdvancing_spec (before : TemporalStateSnapshot S) (params : TemporalOriginalsParams)
    (input : TemporalFrameInput) (read : TemporalReadSnapshot) :
    ∃ plan staged,
      before.stageAdvancing params input read = (plan, staged) ∧
      plan.read = read ∧
      (plan.historyWriteTarget = none ∧ before.SameRing staged ∨
        plan.historyWriteTarget = some before.recordHistoryFrame.historyWrite ∧
          before.recordHistoryFrame.SameRing staged) := by
  have hticks := historyTicksForDelta_sameRing before input.deltaSeconds
  unfold stageAdvancing
  generalize before.historyTicksForDelta input.deltaSeconds = observed at hticks
  obtain ⟨ticks, observed⟩ := observed
  obtain ⟨hwrite, hvalid⟩ := hticks
  dsimp only at hwrite hvalid ⊢
  refine ⟨_, _, rfl, rfl, ?_⟩
  by_cases hpos : ticks > 0
  · right
    have hrec : before.recordHistoryFrame.SameRing
        observed.recordHistoryFrame := by
      simp [SameRing, recordHistoryFrame, hwrite, hvalid]
    have hgarden := advanceGardenHold_sameRing observed.recordHistoryFrame params.garden ticks
    have hscore := advanceScore_sameRing
      (observed.recordHistoryFrame.advanceGardenHold params.garden ticks).2
      params.score input.events
    rw [decide_eq_true hpos, if_pos rfl, if_pos rfl]
    exact ⟨congrArg some hrec.1, hrec.trans (hgarden.trans hscore)⟩
  · left
    have hgarden := advanceGardenHold_sameRing observed params.garden ticks
    have hscore := advanceScore_sameRing
      (observed.advanceGardenHold params.garden ticks).2 params.score
      input.events
    have hsame : before.SameRing observed := ⟨hwrite, hvalid⟩
    rw [decide_eq_false hpos, if_neg Bool.false_ne_true, if_neg Bool.false_ne_true]
    exact ⟨rfl, hsame.trans (hgarden.trans hscore)⟩

theorem stage_spec {before : TemporalStateSnapshot S} (state : TemporalStateSnapshot S)
    (params : TemporalParams) (input : TemporalFrameInput)
    (hpre : before = state.applyEventResets params.forFrameDelta.originals input) :
    ∃ plan staged, state.stage params input = (plan, staged) ∧
      plan.read = temporalReadSnapshot before.historyWrite before.historyValid
        params.forFrameDelta.keyHistory ∧
      (plan.historyWriteTarget = none ∧ before.SameRing staged ∨
        plan.historyWriteTarget = some before.recordHistoryFrame.historyWrite ∧
          before.recordHistoryFrame.SameRing staged) := by
  rw [stage, ← hpre]
  split
  · rw [stageFrozen]
    split
    · exact ⟨_, _, rfl, rfl, .inl ⟨rfl, rfl, rfl⟩⟩
    · exact ⟨_, _, rfl, rfl, .inl ⟨rfl, rfl, rfl⟩⟩
  · exact stageAdvancing_spec _ _ _ _

end TemporalStateSnapshot

/-- The layer of an age shows the image recorded that many recordings ago, and
the frame does not write it. -/
def ShowsAge (layers : List (Option Image)) (recorded : List Image)
    (plan : TemporalFramePlan) (layer age : ℕ) : Prop :=
  age ≤ recorded.length ∧
    layers[layer]? = some recorded[recorded.length - age]? ∧
    plan.historyWriteTarget ≠ some layer

structure ReadsExact (layers : List (Option Image)) (recorded : List Image)
    (depth : ℕ) (plan : TemporalFramePlan) : Prop where
  key : ∀ layer ∈ plan.read.keyReference, ShowsAge layers recorded plan layer depth
  age : ∀ age, 1 ≤ age → age ≤ plan.read.virtualValid - 1 →
    ShowsAge layers recorded plan
      ((plan.read.virtualWrite + temporalHistoryLen - age) % temporalHistoryLen) age

theorem toNat_clampedAge {age : F32} {maxAge : ℕ} (hfin : age.isFinite)
    (hmax : maxAge < temporalHistoryLen) :
    ((age.clamp 0 (F32.ofNat maxAge)).floor.toNat u32Max ≤ maxAge) ∧
      (age.clamp 0 (F32.ofNat maxAge)).ceil.toNat u32Max ≤ maxAge := by
  have hzero : (0 : F32).value = 0 := by decide
  have hages : ∀ age < temporalHistoryLen,
      F32.isRange 0 0 (F32.ofNat age) ∧ (F32.ofNat age).value = (age : ℤ) * F32.scale := by
    decide +kernel
  obtain ⟨hrng, hval⟩ := hages maxAge hmax
  have hclamped := F32.clamp_within (F32.isNan_of_isFinite hfin) hrng
  rw [hzero, hval] at hclamped
  obtain ⟨hfin, hlow, hhigh⟩ := hclamped
  have hsmall : temporalHistoryLen < 2 ^ 24 := by decide
  exact F32.toNat_wholePart_le u32Max hfin hlow hhigh (hmax.trans hsmall)

theorem temporalHistorySamplePlan_le (requestedAge : F32) (virtualValid : ℕ)
    (interpolation : TemporalInterpolation) :
    let plan := temporalHistorySamplePlan requestedAge virtualValid interpolation
    plan.lowerAge ≤ virtualValid - 1 ∧ plan.upperAge ≤ virtualValid - 1 := by
  have hmax : min (virtualValid - 1) (temporalHistoryLen - 1) < temporalHistoryLen :=
    (min_le_right _ _).trans_lt (by decide)
  have hvalid := min_le_left (virtualValid - 1) (temporalHistoryLen - 1)
  have hfin : (requestedAge.finiteOr 0).isFinite := F32.isFinite_finiteOr (by decide)
  obtain ⟨hfloor, hceil⟩ := toNat_clampedAge hfin hmax
  unfold temporalHistorySamplePlan
  cases interpolation with
  | floor =>
    dsimp only
    exact ⟨hfloor.trans hvalid, hfloor.trans hvalid⟩
  | linear =>
    dsimp only
    exact ⟨hfloor.trans hvalid, hceil.trans hvalid⟩

theorem temporalKeyDepth_within (requestedDepth : F32) :
    1 ≤ temporalKeyDepth requestedDepth ∧ temporalKeyDepth requestedDepth < temporalHistoryLen := by
  rw [temporalKeyDepth]
  split
  · next hfin =>
      have hone : (1 : F32).value = ((1 : ℕ) : ℤ) * F32.scale := by decide +kernel
      have hlast : (23 : F32).value = ((23 : ℕ) : ℤ) * F32.scale := by decide +kernel
      obtain ⟨hclamped, hlow, hhigh⟩ := F32.clamp_within (F32.isNan_roundHalfAway hfin)
        (show F32.isRange 1 1 23 by decide +kernel)
      obtain ⟨hlow, hhigh⟩ := F32.toNat_within usizeMax hclamped
        (hone.symm.le.trans hlow) (hhigh.trans hlast.le) (by decide)
      exact ⟨hlow, lt_succ_of_le hhigh⟩
  · exact ⟨le_rfl, by decide⟩

section

variable {state : TemporalStateSnapshot S} {layers : List (Option Image)}
  {recorded : List Image} {plan : TemporalFramePlan} {keyHistory : F32}

variable (h : state.Records layers recorded)
  (hread : plan.read = temporalReadSnapshot state.historyWrite state.historyValid keyHistory)
  (htarget : ∀ target ∈ plan.historyWriteTarget, target = (state.ringView layers).next)
include h hread htarget

theorem showsAge {age : ℕ} (hpos : 1 ≤ age) (hvalid : age ≤ plan.read.virtualValid - 1) :
    ShowsAge layers recorded plan
      ((plan.read.virtualWrite + temporalHistoryLen - age) % temporalHistoryLen) age := by
  have hcnt := h.holds.count
  have hsome : state.historyValid ≠ 0 := by
    intro hzero
    simp [hread, temporalReadSnapshot, hzero] at hvalid
    omega
  have hnext : plan.read.virtualWrite = (state.ringView layers).next := by
    simp [hread, temporalReadSnapshot, ringView, hsome]
  have hbds : age ≤ state.historyValid ∧ age < temporalHistoryLen := by
    rw [hread] at hvalid
    simp only [temporalReadSnapshot, if_neg hsome] at hvalid
    have hlen := temporalHistoryLen_pos
    omega
  have hrec : age ≤ recorded.length := hbds.1.trans (hcnt.trans_le (min_le_left _ _))
  rw [hnext]
  refine ⟨hrec, h.holds.slot_of_age hpos hrec hbds.2.le, ?_⟩
  intro hsame
  exact h.holds.age_ne_next hpos hbds.2 (htarget _ hsame)

theorem readsExact : ReadsExact layers recorded (temporalKeyDepth keyHistory) plan := by
  refine ⟨?_, fun age hpos hvalid => showsAge h hread htarget hpos hvalid⟩
  intro layer hlayer
  obtain ⟨hpos, hdepth⟩ := temporalKeyDepth_within keyHistory
  have hlen : temporalHistoryLen = 24 := rfl
  simp only [hread, temporalReadSnapshot, temporalKeyReferenceLayer] at hlayer
  split at hlayer
  · cases hlayer
  · next havailable =>
      cases hlayer
      simp only [Bool.or_eq_true, decide_eq_true_eq, not_or, not_le]
        at havailable
      obtain ⟨hsome, hoff⟩ := havailable
      have hwrite := h.write_lt
      have hvalid : temporalKeyDepth keyHistory ≤ plan.read.virtualValid - 1 := by
        simp only [hread, temporalReadSnapshot, if_neg hsome]
        omega
      have hlayer : (state.historyWrite + temporalHistoryLen -
            (temporalKeyDepth keyHistory - 1)) % temporalHistoryLen =
          (plan.read.virtualWrite + temporalHistoryLen -
            temporalKeyDepth keyHistory) % temporalHistoryLen := by
        simp only [hread, temporalReadSnapshot, if_neg hsome, hlen] at *
        omega
      rw [hlayer]
      exact showsAge h hread htarget hpos hvalid

end

namespace TemporalRing

variable [Seconds S] {ring : TemporalRing S Image}

/-- Between two frames none is staged and the texture holds the recordings. -/
structure Consistent (ring : TemporalRing S Image) : Prop where
  settled : ring.state.stagedSnapshot = none
  records : ring.state.toTemporalStateSnapshot.Records ring.layers ring.recorded

theorem consistent_new : (new : TemporalRing S Image).Consistent :=
  ⟨rfl, records_default⟩

theorem Consistent.stageFrame (h : ring.Consistent) (params : TemporalParams)
    (input : TemporalFrameInput) :
    ∃ plan staged, ring.state.stageFrame params input = some (plan, staged) ∧
      staged.stagedSnapshot = some ring.state.toTemporalStateSnapshot ∧
      staged.historyWrite < temporalHistoryLen ∧
      staged.historyValid ≤ temporalHistoryLen ∧
      ReadsExact ring.layers (ring.recordedBefore params input)
        (temporalKeyDepth params.forFrameDelta.keyHistory) plan ∧
      ∀ image, staged.toTemporalStateSnapshot.Records (write ring.layers plan image)
        (ring.recordedBefore params input ++
          plan.historyWriteTarget.toList.map fun _ => image) := by
  have hpre := h.records.applyEventResets params input
  rw [← recordedBefore] at hpre
  obtain ⟨plan, staged, hstage, hread, htarget⟩ :=
    stage_spec ring.state.toTemporalStateSnapshot params input rfl
  have hframe : ring.state.stageFrame params input = some
      (plan, ⟨staged, some ring.state.toTemporalStateSnapshot⟩) := by
    simp only [TemporalState.stageFrame, h.settled, hstage]
    rfl
  refine ⟨_, _, hframe, rfl, ?_⟩
  generalize ring.state.toTemporalStateSnapshot.applyEventResets
    params.forFrameDelta.originals input = before at hread htarget hpre
  rcases htarget with ⟨hnone, hsame⟩ | ⟨hsome, hsame⟩
  · have hstaged := hpre.congr hsame
    refine ⟨hstaged.write_lt, hstaged.valid_le, ?_, ?_⟩
    · exact readsExact hpre hread (by simp [hnone])
    · intro image
      simpa [write, hnone] using hstaged
  · have hwrite := before.recordHistoryFrame_write ring.layers
    refine ⟨?_, ?_, ?_, ?_⟩
    · rw [hsame.1, hwrite, hpre.holds.next]
      exact mod_lt _ temporalHistoryLen_pos
    · rw [hsame.2]
      exact min_le_right _ _
    · refine readsExact hpre hread ?_
      intro target hmem
      rw [hsome] at hmem
      rw [← Option.some.inj hmem]
      exact hwrite
    · intro image
      rw [write, hsome]
      exact (hpre.recordHistoryFrame image).congr hsame

theorem Consistent.resetFor (h : ring.Consistent) (cause : TemporalResetCause) :
    ({ ring with
      state := ring.state.resetFor cause
      recorded := if (TemporalResetDomains.forCause cause).cleanHistory then []
        else ring.recorded } : TemporalRing S Image).Consistent := by
  by_cases hnone : TemporalResetDomains.forCause cause = .none
  · refine ⟨?_, ?_⟩
    · simpa [TemporalState.resetFor, TemporalState.applyResetDomains, hnone] using h.settled
    · rw [hnone, TemporalState.resetFor, TemporalState.applyResetDomains, if_pos hnone]
      exact h.records.congr ⟨rfl, rfl⟩
  · have hreset := h.records.applyResetValues (TemporalResetDomains.forCause cause)
    rw [TemporalState.resetFor, TemporalState.applyResetDomains, if_neg hnone]
    exact ⟨rfl, hreset.congr ⟨rfl, rfl⟩⟩

theorem Consistent.perform (h : ring.Consistent) (call : TemporalCall Image) :
    ∃ next, ring.perform call = some next ∧ next.Consistent := by
  cases call with
  | frame params input image accepted =>
    obtain ⟨plan, staged, hstage, hsnapshot, -, -, -, hrecords⟩ := h.stageFrame params input
    refine ⟨_, by rw [TemporalRing.perform, hstage]; rfl, ?_⟩
    cases accepted with
    | true => exact ⟨rfl, hrecords image⟩
    | false =>
      refine ⟨?_, ?_⟩
      · simp [TemporalState.discardStaged, hsnapshot]
      · simpa [TemporalState.discardStaged, hsnapshot] using h.records
  | reset cause => exact ⟨_, rfl, h.resetFor cause⟩

theorem Consistent.run (h : ring.Consistent) (calls : List (TemporalCall Image)) :
    ∃ last, calls.foldlM TemporalRing.perform ring = some last ∧ last.Consistent := by
  induction calls generalizing ring with
  | nil => exact ⟨ring, rfl, h⟩
  | cons call calls ih =>
    obtain ⟨next, hnext, hcons⟩ := h.perform call
    obtain ⟨last, hlast, hcons⟩ := ih hcons
    refine ⟨last, ?_, hcons⟩
    rw [foldlM_cons, hnext]
    exact hlast

/-- After every run, every frame that is staged reads the images of the ages it
asks for and none of the layer it writes. -/
theorem history_ring_exact (calls : List (TemporalCall Image)) :
    ∃ ring : TemporalRing S Image,
      calls.foldlM TemporalRing.perform new = some ring ∧
      ring.state.historyWrite < temporalHistoryLen ∧
      ring.state.historyValid ≤ temporalHistoryLen ∧
      ∀ params input, ∃ plan staged,
        ring.state.stageFrame params input = some (plan, staged) ∧
        staged.historyWrite < temporalHistoryLen ∧
        staged.historyValid ≤ temporalHistoryLen ∧
        ReadsExact ring.layers (ring.recordedBefore params input)
          (temporalKeyDepth params.forFrameDelta.keyHistory) plan ∧
        ∀ requestedAge interpolation,
          let sample := temporalHistorySamplePlan requestedAge
            plan.read.virtualValid interpolation
          sample.lowerAge ≤ plan.read.virtualValid - 1 ∧
            sample.upperAge ≤ plan.read.virtualValid - 1 := by
  have hnew : (new : TemporalRing S Image).Consistent := consistent_new
  obtain ⟨ring, hrun, hring⟩ := hnew.run calls
  refine ⟨ring, hrun, hring.records.write_lt, hring.records.valid_le, ?_⟩
  intro params input
  obtain ⟨plan, staged, hstage, -, hwrite, hvalid, hreads, -⟩ := hring.stageFrame params input
  refine ⟨plan, staged, hstage, hwrite, hvalid, hreads, ?_⟩
  intro requestedAge interpolation
  exact temporalHistorySamplePlan_le requestedAge plan.read.virtualValid interpolation

end TemporalRing

end CollideOScope.Temporal
