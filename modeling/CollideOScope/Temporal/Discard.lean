import CollideOScope.Temporal.State

/-!
# Discarding a frame around resets

A frame may be reset while it is staged.  The first reset of any domain forgets
what a discard would restore, so from then on only resets can undo the frame.
-/

namespace CollideOScope.Temporal

variable {S : Type} [Seconds S]

inductive ResetCall
  | resetFor (cause : TemporalResetCause)
  | applyResetDomains (domains : TemporalResetDomains)

namespace ResetCall

def perform (state : TemporalState S) : ResetCall → TemporalState S
  | resetFor cause => state.resetFor cause
  | applyResetDomains domains => state.applyResetDomains domains

def domains : ResetCall → TemporalResetDomains
  | resetFor cause => .forCause cause
  | applyResetDomains domains => domains

def cleared (resets : List ResetCall) : TemporalResetDomains :=
  resets.foldr (fun reset all => reset.domains.union all) .none

def run (state : TemporalState S) (resets : List ResetCall) : TemporalState S :=
  resets.foldl perform state

end ResetCall

/-- The fields of history, carrier, freeze, score and hold. -/
def TemporalState.fields (state : TemporalState S) : TemporalStateSnapshot S :=
  { state.toTemporalStateSnapshot with lastReset := none }

def LeavesNoTrace (S : Type) [Seconds S] (resets : List ResetCall) : Prop :=
  ∀ (state : TemporalState S), state.stagedSnapshot = none →
    ∀ params input plan staged,
      state.stageFrame params input = some (plan, staged) →
      (ResetCall.run staged resets).discardStaged.fields = (ResetCall.run state resets).fields

theorem TemporalResetDomains.union_eq_none {a b : TemporalResetDomains} :
    a.union b = .none ↔ a = .none ∧ b = .none := by
  rcases a with ⟨_ | _, _ | _, _ | _, _ | _⟩ <;>
    rcases b with ⟨_ | _, _ | _, _ | _, _ | _⟩ <;> decide

theorem TemporalResetDomains.none_union (a : TemporalResetDomains) :
    TemporalResetDomains.union .none a = a := rfl

theorem TemporalStateSnapshot.applyResetValues_union
    (state : TemporalStateSnapshot S) (a b : TemporalResetDomains) :
    (state.applyResetValues a).applyResetValues b = state.applyResetValues (a.union b) := by
  rcases a with ⟨_ | _, _ | _, _ | _, _ | _⟩ <;> rcases b with ⟨_ | _, _ | _, _ | _, _ | _⟩ <;> rfl

theorem TemporalStateSnapshot.applyResetValues_fields
    (state : TemporalStateSnapshot S) (domains : TemporalResetDomains) :
    (state.applyResetValues domains).initialized = (!domains.cleanHistory && state.initialized) ∧
      (state.applyResetValues domains).feedbackValid = (!domains.carrier && state.feedbackValid) ∧
      (state.applyResetValues domains).freezeHoldValid =
        (!domains.freezeHold && state.freezeHoldValid) ∧
      (state.applyResetValues domains).score = if domains.score then .default else state.score := by
  rcases domains with ⟨_ | _, _ | _, _ | _, _ | _⟩ <;> exact ⟨rfl, rfl, rfl, rfl⟩

variable (state : TemporalState S)

theorem ResetCall.perform_cases (reset : ResetCall) :
    (reset.perform state).fields = state.fields.applyResetValues reset.domains ∧
      (reset.perform state).stagedSnapshot =
        if reset.domains = .none then state.stagedSnapshot else none := by
  have hdomains (domains : TemporalResetDomains) :
      (state.applyResetDomains domains).fields = state.fields.applyResetValues domains ∧
        (state.applyResetDomains domains).stagedSnapshot =
          if domains = .none then state.stagedSnapshot else none := by
    unfold TemporalState.applyResetDomains
    split
    · next hnone =>
        subst hnone
        exact ⟨rfl, rfl⟩
    · rcases domains with ⟨_ | _, _ | _, _ | _, _ | _⟩ <;> exact ⟨rfl, rfl⟩
  cases reset with
  | resetFor cause => exact hdomains (.forCause cause)
  | applyResetDomains domains => exact hdomains domains

theorem ResetCall.run_cases (resets : List ResetCall) :
    (run state resets).fields = state.fields.applyResetValues (cleared resets) ∧
      (run state resets).stagedSnapshot =
        if cleared resets = .none then state.stagedSnapshot else none := by
  induction resets generalizing state with
  | nil => exact ⟨rfl, rfl⟩
  | cons reset resets ih =>
    obtain ⟨hfields, hstaged⟩ := perform_cases state reset
    obtain ⟨hrest, hkept⟩ := ih (reset.perform state)
    have hrun : run state (reset :: resets) = run (reset.perform state) resets := rfl
    have hclr : cleared (reset :: resets) = reset.domains.union (cleared resets) := rfl
    rw [hrun, hclr, hrest, hfields, hkept, hstaged, TemporalStateSnapshot.applyResetValues_union]
    refine ⟨rfl, ?_⟩
    by_cases hreset : reset.domains = .none
    · rw [hreset, TemporalResetDomains.none_union, if_pos rfl]
    · have hunion : reset.domains.union (cleared resets) ≠ .none :=
        fun h => hreset (TemporalResetDomains.union_eq_none.mp h).1
      rw [if_neg hreset, if_neg hunion, ite_self]

theorem stageFrame_of_none {state : TemporalState S} (h : state.stagedSnapshot = none)
    (params : TemporalParams) (input : TemporalFrameInput) :
    state.stageFrame params input =
      some ((state.stage params input).1, ⟨(state.stage params input).2,
        some state.toTemporalStateSnapshot⟩) := by
  simp [TemporalState.stageFrame, h]

open ResetCall

theorem discard_run (staged : TemporalStateSnapshot S) (resets : List ResetCall) :
    (ResetCall.run ⟨staged, some state.toTemporalStateSnapshot⟩ resets).discardStaged.fields =
      if ResetCall.cleared resets = .none then state.fields
      else (TemporalState.fields ⟨staged, none⟩).applyResetValues (ResetCall.cleared resets) := by
  obtain ⟨hfields, hstaged⟩ := run_cases ⟨staged, some state.toTemporalStateSnapshot⟩ resets
  unfold TemporalState.discardStaged
  rw [hstaged]
  by_cases hnone : cleared resets = .none
  · rw [if_pos hnone, if_pos hnone]
    rfl
  · rw [if_neg hnone, if_neg hnone]
    exact hfields

/-- A frame that counts one manual event in the score. -/
def scoringParams : TemporalParams where
  keyHistory := 1
  originals := ⟨⟨0, 0⟩, ⟨true, 2, .manual⟩, ⟨.none, .none⟩⟩

def scoringInput : TemporalFrameInput := ⟨0, .running, ⟨0, 0, 0, 1, 0⟩⟩

theorem stage_default :
    let staged := ((TemporalStateSnapshot.default (S := S)).stage scoringParams
      scoringInput).2
    staged.initialized = true ∧ staged.feedbackValid = true ∧
      staged.freezeHoldValid = true ∧ staged.score.eventOrdinal = 1 :=
  ⟨rfl, rfl, rfl, rfl⟩

theorem eq_hard_of_applyResetValues_eq {staged : TemporalStateSnapshot S}
    (hstaged : staged.initialized = true ∧ staged.feedbackValid = true ∧
      staged.freezeHoldValid = true ∧ staged.score.eventOrdinal = 1)
    {domains : TemporalResetDomains}
    (h : (TemporalState.fields ⟨staged, none⟩).applyResetValues domains =
      (TemporalState.fields .default).applyResetValues domains) :
    domains = .hard := by
  obtain ⟨hinit, hfeedback, hfreeze, hscore⟩ := hstaged
  obtain ⟨hclean, hcarrier, hhold, hevs⟩ :=
    (TemporalState.fields ⟨staged, none⟩).applyResetValues_fields domains
  obtain ⟨hclean', hcarrier', hhold', hevents'⟩ :=
    (TemporalState.fields (S := S) .default).applyResetValues_fields domains
  rw [h] at hclean hcarrier hhold hevs
  have hcleaned : domains.cleanHistory = true := by
    simpa [TemporalState.fields, TemporalState.default,
      TemporalStateSnapshot.default, hinit] using hclean'.symm.trans hclean
  have hcarried : domains.carrier = true := by
    simpa [TemporalState.fields, TemporalState.default,
      TemporalStateSnapshot.default, hfeedback] using hcarrier'.symm.trans hcarrier
  have hheld : domains.freezeHold = true := by
    simpa [TemporalState.fields, TemporalState.default,
      TemporalStateSnapshot.default, hfreeze] using hhold'.symm.trans hhold
  have hscored : domains.score = true := by
    by_contra hkept
    have hsame := hevents'.symm.trans hevs
    rw [if_neg hkept, if_neg hkept] at hsame
    have hord : 0 = staged.score.eventOrdinal := congrArg CollisionScoreState.eventOrdinal hsame
    exact absurd (hord.trans hscore) (by decide)
  rcases domains with ⟨clean, carrier, score, hold⟩
  subst hcleaned hcarried hheld hscored
  rfl

/-- A discarded frame leaves no trace exactly behind resets that clear nothing,
and behind resets that together clear every domain. -/
theorem discard_leaves_no_trace_iff (resets : List ResetCall) :
    LeavesNoTrace S resets ↔
      ResetCall.cleared resets = .none ∨ ResetCall.cleared resets = .hard := by
  constructor
  · intro h
    have htrace := h .default rfl scoringParams scoringInput _ _ (stageFrame_of_none rfl _ _)
    rw [discard_run, (run_cases _ resets).1] at htrace
    by_cases hnone : cleared resets = .none
    · exact .inl hnone
    · right
      rw [if_neg hnone] at htrace
      exact eq_hard_of_applyResetValues_eq stage_default htrace
  · rintro hcleared state hstate params input plan staged hstage
    rw [stageFrame_of_none hstate] at hstage
    cases hstage
    rw [discard_run, (run_cases _ resets).1]
    rcases hcleared with hnone | hhard
    · rw [if_pos hnone, hnone]
      rfl
    · rw [if_neg (by rw [hhard]; decide), hhard]
      rfl

theorem manual_clear_keeps_staged_freeze : ¬LeavesNoTrace ℚ [.resetFor .manualClear] := by
  intro h
  have htrace := h .default rfl scoringParams scoringInput _ _ (stageFrame_of_none rfl _ _)
  exact absurd (congrArg TemporalStateSnapshot.freezeHoldValid htrace) (by decide)

end CollideOScope.Temporal
