import CollideOScope.Support.Machine
import CollideOScope.Support.Words

/-!
# History boundaries of the native editor

The editor queues the boundaries of its gestures for the host to drain.  A full
queue is cleared, and with it the End of a Begin that was drained before.
-/

namespace CollideOScope.Gesture

open Option List

/-- `EditorHistoryBoundary`, with `Begin` and `End`. -/
inductive EditorHistoryBoundary
  | opens (gestureId : ℕ) (label category : String)
  | closes (gestureId : ℕ)

def maxEditorHistoryBoundaries : ℕ := 32

structure EditorState where
  activeField : Option String := none
  historyBoundaries : List EditorHistoryBoundary := []
  activeHistoryGesture : Option ℕ := none
  nextHistoryGesture : ℕ := 1

namespace EditorState

variable (s : EditorState)

/-- `push_history_boundary`; the flag is its result. -/
def push (boundary : EditorHistoryBoundary) : Bool × EditorState :=
  if s.historyBoundaries.length = maxEditorHistoryBoundaries then
    (false, { s with historyBoundaries := [], activeHistoryGesture := none })
  else (true, { s with historyBoundaries := s.historyBoundaries ++ [boundary] })

def endHistoryGesture : EditorState :=
  match s.activeHistoryGesture with
  | none => s
  | some gestureId => (push { s with activeHistoryGesture := none } (.closes gestureId)).2

def beginHistoryGesture (label : String) : Bool × EditorState :=
  let s := s.endHistoryGesture
  let gestureId := max s.nextHistoryGesture 1
  let pushed := push
    { s with nextHistoryGesture := (checkedAddU64 gestureId 1).getD 1 }
    (.opens gestureId label "native_editor")
  (pushed.1, if pushed.1 then { pushed.2 with activeHistoryGesture := gestureId } else pushed.2)

def finishActiveEdit : EditorState := endHistoryGesture { s with activeField := none }

def takeHistoryBoundaries : List EditorHistoryBoundary × EditorState :=
  (s.historyBoundaries, { s with historyBoundaries := [] })

end EditorState

inductive EditorCall
  | beginHistoryGesture (label : String)
  | endHistoryGesture
  | finishActiveEdit
  | takeHistoryBoundaries

def editorMachine : Machine (EditorState × List EditorHistoryBoundary) EditorCall where
  start s := s = ({}, [])
  step s
    | .beginHistoryGesture label => some ((s.1.beginHistoryGesture label).2, s.2)
    | .endHistoryGesture => some (s.1.endHistoryGesture, s.2)
    | .finishActiveEdit => some (s.1.finishActiveEdit, s.2)
    | .takeHistoryBoundaries =>
      some (s.1.takeHistoryBoundaries.2, s.2 ++ s.1.takeHistoryBoundaries.1)

/-- The gesture that is open behind a boundary, if the boundary is matched. -/
def matchBoundary : Option ℕ → EditorHistoryBoundary → Option (Option ℕ)
  | none, .opens gestureId _ _ => some (some gestureId)
  | some active, .closes gestureId => if active = gestureId then some none else none
  | _, _ => none

/-- The gesture that is open behind boundaries `Begin g₁`, `End g₁`, `Begin g₂`,
and so on; `none` for any other sequence. -/
def openGesture (boundaries : List EditorHistoryBoundary) : Option (Option ℕ) :=
  boundaries.foldlM matchBoundary none

/-- The queue is full and its first boundary closes a gesture drained open. -/
def EditorState.LosesEnd (s : EditorState) : Prop :=
  s.historyBoundaries.length = maxEditorHistoryBoundaries ∧
    ∃ gestureId, s.historyBoundaries.head? = some (.closes gestureId)

variable {s : EditorState} {drained : List EditorHistoryBoundary}

def Matched (s : EditorState) (drained : List EditorHistoryBoundary) : Prop :=
  openGesture (drained ++ s.historyBoundaries) = some s.activeHistoryGesture

theorem Matched.drained_closed (h : Matched s drained) (hkeep : ¬ s.LosesEnd)
    (hfull : s.historyBoundaries.length = maxEditorHistoryBoundaries) :
    openGesture drained = some none := by
  rw [Matched, openGesture, foldlM_append] at h
  obtain ⟨active, hdrained, hqueue⟩ := bind_eq_some_iff.mp h
  rw [openGesture, hdrained]
  cases hb : s.historyBoundaries with
  | nil => simp [hb, maxEditorHistoryBoundaries] at hfull
  | cons first rest =>
    cases first with
    | closes gestureId => exact absurd ⟨hfull, gestureId, by simp [hb]⟩ hkeep
    | opens gestureId label category =>
      cases active with
      | none => rfl
      | some _ => simp [hb, matchBoundary] at hqueue

theorem matchBoundary_parity {boundaries : List EditorHistoryBoundary} {before after : Option ℕ}
    (h : boundaries.foldlM matchBoundary before = some after) :
    (before.isSome.toNat + boundaries.length) % 2 = after.isSome.toNat := by
  induction boundaries generalizing before with
  | nil =>
    cases h
    cases after <;> rfl
  | cons boundary rest ih =>
    obtain ⟨next, hnext, hrest⟩ := bind_eq_some_iff.mp h
    have := ih hrest
    cases before <;> cases boundary <;> simp [matchBoundary] at hnext
    · subst hnext
      simp at this ⊢
      omega
    · obtain ⟨-, rfl⟩ := hnext
      simp at this ⊢
      omega

theorem Matched.active_of_losesEnd (h : Matched s drained) (hlose : s.LosesEnd) :
    s.activeHistoryGesture.isSome := by
  obtain ⟨hfull, gestureId, hhead⟩ := hlose
  rw [Matched, openGesture, foldlM_append] at h
  obtain ⟨active, -, hqueue⟩ := bind_eq_some_iff.mp h
  have hpar := matchBoundary_parity hqueue
  obtain ⟨rest, hb⟩ := head?_eq_some_iff.mp hhead
  cases active with
  | none => simp [hb, matchBoundary] at hqueue
  | some _ =>
    rw [hfull] at hpar
    cases hactive : s.activeHistoryGesture
    · simp [hactive, maxEditorHistoryBoundaries] at hpar
    · rfl

theorem Matched.push (h : Matched s drained) (hkeep : ¬ s.LosesEnd)
    (boundary : EditorHistoryBoundary) (active : Option ℕ)
    (hmatch : matchBoundary s.activeHistoryGesture boundary = some active)
    (s' : EditorState) (hqueue : s'.historyBoundaries = s.historyBoundaries) :
    (s'.push boundary).1 = false ∧ Matched (s'.push boundary).2 drained ∨
      (s'.push boundary).1 = true ∧
        Matched { (s'.push boundary).2 with activeHistoryGesture := active } drained := by
  by_cases hfull : s.historyBoundaries.length = maxEditorHistoryBoundaries
  · refine .inl ?_
    simpa [EditorState.push, hqueue, hfull, Matched] using h.drained_closed hkeep hfull
  · refine .inr ?_
    rw [Matched, openGesture] at h
    simp [EditorState.push, hqueue, hfull, Matched, openGesture, ← append_assoc, h, hmatch]

theorem Matched.endHistoryGesture (h : Matched s drained) (hkeep : ¬ s.LosesEnd) :
    Matched s.endHistoryGesture drained ∧
      s.endHistoryGesture.activeHistoryGesture = none ∧
      ¬ s.endHistoryGesture.LosesEnd := by
  cases hactive : s.activeHistoryGesture with
  | none =>
    simp only [EditorState.endHistoryGesture, hactive]
    exact ⟨h, trivial, hkeep⟩
  | some gestureId =>
    have hnone : s.endHistoryGesture.activeHistoryGesture = none := by
      simp only [EditorState.endHistoryGesture, hactive, EditorState.push]
      split_ifs <;> rfl
    have hmatched : Matched s.endHistoryGesture drained := by
      have hpush := h.push hkeep (.closes gestureId) none
        (by simp [hactive, matchBoundary]) { s with activeHistoryGesture := none } rfl
      simp only [EditorState.endHistoryGesture, hactive]
      rcases hpush with ⟨-, hpush⟩ | ⟨hok, hpush⟩
      · exact hpush
      · convert hpush using 1
        simp only [EditorState.push] at hok ⊢
        split_ifs <;> rfl
    refine ⟨hmatched, hnone, fun hlose => ?_⟩
    have := hmatched.active_of_losesEnd hlose
    simp [hnone] at this

theorem Matched.beginHistoryGesture (h : Matched s drained) (hkeep : ¬ s.LosesEnd)
    (label : String) : Matched (s.beginHistoryGesture label).2 drained := by
  obtain ⟨hend, hnone, hkeep⟩ := h.endHistoryGesture hkeep
  let gestureId := max s.endHistoryGesture.nextHistoryGesture 1
  have hpush := hend.push hkeep (.opens gestureId label "native_editor") (some gestureId)
    (by simp [hnone, matchBoundary])
    { s.endHistoryGesture with nextHistoryGesture := (checkedAddU64 gestureId 1).getD 1 } rfl
  rcases hpush with ⟨hok, hpush⟩ | ⟨hok, hpush⟩
  · exact (congrArg (Matched · drained) (if_neg (Bool.eq_false_iff.mp hok))).mpr hpush
  · exact (congrArg (Matched · drained) (if_pos hok)).mpr hpush

def KeepsEnd (s : EditorState × List EditorHistoryBoundary) (call : EditorCall) : Prop :=
  match call with
  | .takeHistoryBoundaries => True
  | _ => ¬ s.1.LosesEnd

theorem matched_of_reachable
    (h : editorMachine.ReachableBy KeepsEnd (s, drained)) : Matched s drained := by
  refine h.invariant (P := fun s => Matched s.1 s.2) ?_ ?_
  · rintro _ rfl
    rfl
  · intro s call next hmatched hkeep hstep
    cases call with
    | beginHistoryGesture label =>
      cases hstep
      exact hmatched.beginHistoryGesture hkeep label
    | endHistoryGesture =>
      cases hstep
      exact (hmatched.endHistoryGesture hkeep).1
    | finishActiveEdit =>
      cases hstep
      exact (Matched.endHistoryGesture (s := { s.1 with activeField := none }) hmatched hkeep).1
    | takeHistoryBoundaries =>
      cases hstep
      simpa [Matched, EditorState.takeHistoryBoundaries] using hmatched

/-- **No End of a drained Begin is lost**, unless a full queue is cleared that
starts with it. -/
theorem editor_boundaries_matched (h : editorMachine.ReachableBy KeepsEnd (s, drained)) :
    openGesture (drained ++ s.historyBoundaries) = some s.activeHistoryGesture ∧
      openGesture drained ≠ none ∧
      (s.historyBoundaries = [] → openGesture drained = some s.activeHistoryGesture) := by
  have hmatched := matched_of_reachable h
  refine ⟨hmatched, fun hnone => ?_, fun hempty => ?_⟩
  · rw [Matched, openGesture, foldlM_append] at hmatched
    rw [openGesture] at hnone
    simp [hnone] at hmatched
  · simpa [Matched, hempty] using hmatched

theorem editor_boundaries_matched_once :
    openGesture [.opens 1 "Edit" "native_editor"] = some (some 1) :=
  (editor_boundaries_matched (s := ⟨none, [], some 1, 2⟩)
    ⟨_, rfl, .tail (.tail (.refl _) (e := .beginHistoryGesture "Edit")
      (fun h => nomatch h.1) rfl) (e := .takeHistoryBoundaries) trivial rfl⟩).2.2 rfl

set_option maxRecDepth 4000 in
/-- An End waits behind fifteen gestures; the next one clears the queue. -/
theorem drained_begin_stays_open :
    ¬ ∀ s drained, editorMachine.Reachable (s, drained) →
      s.historyBoundaries = [] → openGesture drained = some s.activeHistoryGesture := by
  intro h
  have hrun : editorMachine.exec ({}, []) ([.beginHistoryGesture "", .takeHistoryBoundaries] ++
      (replicate 16 [.endHistoryGesture, .beginHistoryGesture ""]).flatten ++
      [.endHistoryGesture]) = some _ := rfl
  have := h _ _ (Machine.reachable_of_exec rfl hrun) rfl
  cases this

end CollideOScope.Gesture
