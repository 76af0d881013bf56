import CollideOScope.Modulation.Remap

/-!
# Saved references under edits of the stack

A morph slot names layers by their position, in nine kinds of reference.  Each
kind has a selected form, which names a position, and a missing form, which is
the tombstone of a layer that was removed.  A move takes the named position
where the layer goes; a removal shifts the positions behind it, and turns the
references to the removed layer into tombstones.
-/

namespace CollideOScope.Morph

open Composition

/-- `remapped_saved_position_after_move`.  A position that no saved position
can hold leaves the reference as it was. -/
def remappedSavedPositionAfterMove (position : SavedLayerPosition)
    (source dest : ℕ) : SavedLayerPosition :=
  (Modulation.savedLayerPosition (afterMove source dest position.val)).getD position

/-- The position before one that is past the removed. -/
def precedingPosition (position : SavedLayerPosition) : SavedLayerPosition :=
  ⟨position.val - 1, (Nat.sub_le _ _).trans position.property⟩

/-- A kind of saved reference: its selected form, its missing form, and what
both carry beside the position. -/
structure ReferenceKind (R S : Type) where
  read : R → Option (SavedLayerPosition × S)
  selected : SavedLayerPosition → S → R
  missing : SavedLayerPosition → S → R
  read_selected : ∀ position rest, read (selected position rest) = some (position, rest)
  read_missing : ∀ position rest, read (missing position rest) = none
  selected_of_read : ∀ {reference position rest},
    read reference = some (position, rest) → selected position rest = reference

namespace ReferenceKind

variable {R S : Type}

/-- The body of the functions that follow a move. -/
def remapAfterMove (kind : ReferenceKind R S) (source dest : ℕ) (reference : R) : R :=
  match kind.read reference with
  | none => reference
  | some (position, rest) =>
    kind.selected (remappedSavedPositionAfterMove position source dest) rest

/-- The body of the functions that follow a removal. -/
def remapAfterRemove (kind : ReferenceKind R S) (removed : ℕ) (reference : R) : R :=
  match kind.read reference with
  | none => reference
  | some (position, rest) =>
    if position.val = removed then kind.missing position rest
    else if removed < position.val then kind.selected (precedingPosition position) rest
    else reference

end ReferenceKind

def tapKind : ReferenceKind SavedImageTap (LayerImageStage × EdgeTiming) where
  read tap :=
    match tap.source with
    | .selectedLayer position stage => some (position, stage, tap.timing)
    | _ => none
  selected position rest := ⟨.selectedLayer position rest.1, rest.2⟩
  missing position rest := ⟨.missingSelectedLayer position rest.1, rest.2⟩
  read_selected _ _ := rfl
  read_missing _ _ := rfl
  selected_of_read := by
    rintro ⟨source, timing⟩ position rest hread
    cases source <;> cases hread
    rfl

def remapSavedTapAfterMove (source dest : ℕ) : SavedImageTap → SavedImageTap :=
  tapKind.remapAfterMove source dest

def remapSavedTapAfterRemove (removed : ℕ) : SavedImageTap → SavedImageTap :=
  tapKind.remapAfterRemove removed

def savedMotionDonorKind : ReferenceKind SavedMotionDonor Unit where
  read donor :=
    match donor with
    | .selected position => some (position, ())
    | _ => none
  selected position _ := .selected position
  missing position _ := .missing position
  read_selected _ _ := rfl
  read_missing _ _ := rfl
  selected_of_read := by
    intro donor position rest hread
    cases donor <;> cases hread
    rfl

def remapSavedMotionDonorAfterMove (source dest : ℕ) : SavedMotionDonor → SavedMotionDonor :=
  savedMotionDonorKind.remapAfterMove source dest

def remapSavedMotionDonorAfterRemove (removed : ℕ) : SavedMotionDonor → SavedMotionDonor :=
  savedMotionDonorKind.remapAfterRemove removed

inductive CollisionScoreLoopDriverConfig
  | none
  | selectedLayer (savedPosition : SavedLayerPosition)
  | missingSelectedLayer (savedPosition : SavedLayerPosition)
  deriving DecidableEq

def scoreDriverKind : ReferenceKind CollisionScoreLoopDriverConfig Unit where
  read driver :=
    match driver with
    | .selectedLayer position => some (position, ())
    | _ => none
  selected position _ := .selectedLayer position
  missing position _ := .missingSelectedLayer position
  read_selected _ _ := rfl
  read_missing _ _ := rfl
  selected_of_read := by
    intro driver position rest hread
    cases driver <;> cases hread
    rfl

def remapScoreDriverAfterMove (source dest : ℕ) :
    CollisionScoreLoopDriverConfig → CollisionScoreLoopDriverConfig :=
  scoreDriverKind.remapAfterMove source dest

def remapScoreDriverAfterRemove (removed : ℕ) :
    CollisionScoreLoopDriverConfig → CollisionScoreLoopDriverConfig :=
  scoreDriverKind.remapAfterRemove removed

inductive RefreshGardenMatteRouteConfig
  | none
  | selectedLayer (savedPosition : SavedLayerPosition) (stage : LayerImageStage)
  | missingSelectedLayer (savedPosition : SavedLayerPosition)
      (stage : LayerImageStage)
  deriving DecidableEq

def gardenMatteKind : ReferenceKind RefreshGardenMatteRouteConfig LayerImageStage where
  read route :=
    match route with
    | .selectedLayer position stage => some (position, stage)
    | _ => none
  selected position stage := .selectedLayer position stage
  missing position stage := .missingSelectedLayer position stage
  read_selected _ _ := rfl
  read_missing _ _ := rfl
  selected_of_read := by
    intro route position rest hread
    cases route <;> cases hread
    rfl

def remapGardenMatteRouteAfterMove (source dest : ℕ) :
    RefreshGardenMatteRouteConfig → RefreshGardenMatteRouteConfig :=
  gardenMatteKind.remapAfterMove source dest

def remapGardenMatteRouteAfterRemove (removed : ℕ) :
    RefreshGardenMatteRouteConfig → RefreshGardenMatteRouteConfig :=
  gardenMatteKind.remapAfterRemove removed

inductive RefreshGardenMotionRouteConfig
  | none
  | selectedLayer (savedPosition : SavedLayerPosition)
  | missingSelectedLayer (savedPosition : SavedLayerPosition)
  deriving DecidableEq

def gardenMotionKind : ReferenceKind RefreshGardenMotionRouteConfig Unit where
  read route :=
    match route with
    | .selectedLayer position => some (position, ())
    | _ => none
  selected position _ := .selectedLayer position
  missing position _ := .missingSelectedLayer position
  read_selected _ _ := rfl
  read_missing _ _ := rfl
  selected_of_read := by
    intro route position rest hread
    cases route <;> cases hread
    rfl

def remapGardenMotionRouteAfterMove (source dest : ℕ) :
    RefreshGardenMotionRouteConfig → RefreshGardenMotionRouteConfig :=
  gardenMotionKind.remapAfterMove source dest

def remapGardenMotionRouteAfterRemove (removed : ℕ) :
    RefreshGardenMotionRouteConfig → RefreshGardenMotionRouteConfig :=
  gardenMotionKind.remapAfterRemove removed

inductive MotionDonorConfig
  | none
  | selected (savedPosition : SavedLayerPosition)
  | missing (savedPosition : SavedLayerPosition)
  deriving DecidableEq

def motionDonorKind : ReferenceKind MotionDonorConfig Unit where
  read donor :=
    match donor with
    | .selected position => some (position, ())
    | _ => none
  selected position _ := .selected position
  missing position _ := .missing position
  read_selected _ _ := rfl
  read_missing _ _ := rfl
  selected_of_read := by
    intro donor position rest hread
    cases donor <;> cases hread
    rfl

def remapMotionDonorAfterMove (source dest : ℕ) : MotionDonorConfig → MotionDonorConfig :=
  motionDonorKind.remapAfterMove source dest

def remapMotionDonorAfterRemove (removed : ℕ) : MotionDonorConfig → MotionDonorConfig :=
  motionDonorKind.remapAfterRemove removed

/-- The routes of a `FieldColliderConfig`. -/
structure FieldColliderConfig where
  (inputA inputB : MotionDonorConfig)

def remapMotionColliderInputsAfterMove (source dest : ℕ)
    (collider : FieldColliderConfig) : FieldColliderConfig where
  inputA := remapMotionDonorAfterMove source dest collider.inputA
  inputB := remapMotionDonorAfterMove source dest collider.inputB

def remapMotionColliderInputsAfterRemove (removed : ℕ)
    (collider : FieldColliderConfig) : FieldColliderConfig where
  inputA := remapMotionDonorAfterRemove removed collider.inputA
  inputB := remapMotionDonorAfterRemove removed collider.inputB

inductive Fate
  | stands (position : SavedLayerPosition)
  | lost (position : SavedLayerPosition)

namespace Fate

def afterMove (source dest : ℕ) (position : SavedLayerPosition) : Fate :=
  .stands (remappedSavedPositionAfterMove position source dest)

def afterRemove (removed : ℕ) (position : SavedLayerPosition) : Fate :=
  if position.val = removed then .lost position
  else if removed < position.val then .stands (precedingPosition position)
  else .stands position

/-- What stands is followed on, and what is lost stays lost. -/
def andThen (next : SavedLayerPosition → Fate) : Fate → Fate
  | stands position => next position
  | lost position => lost position

end Fate

namespace ReferenceKind

variable {R S : Type} (kind : ReferenceKind R S)

def follow (fate : SavedLayerPosition → Fate) (reference : R) : R :=
  match kind.read reference with
  | none => reference
  | some (position, rest) =>
    match fate position with
    | .stands position => kind.selected position rest
    | .lost position => kind.missing position rest

theorem follow_of_read_eq_none {fate : SavedLayerPosition → Fate}
    {reference : R} (h : kind.read reference = none) :
    kind.follow fate reference = reference := by
  rw [follow, h]

@[simp]
theorem follow_stands (reference : R) : kind.follow Fate.stands reference = reference := by
  cases hread : kind.read reference with
  | none => exact kind.follow_of_read_eq_none hread
  | some named =>
    rw [follow, hread]
    exact kind.selected_of_read hread

theorem follow_follow (first next : SavedLayerPosition → Fate) (reference : R) :
    kind.follow next (kind.follow first reference) =
      kind.follow (fun position => (first position).andThen next)
        reference := by
  cases hread : kind.read reference with
  | none =>
    rw [kind.follow_of_read_eq_none hread, kind.follow_of_read_eq_none hread,
      kind.follow_of_read_eq_none hread]
  | some named =>
    obtain ⟨position, rest⟩ := named
    cases hfst : first position with
    | stands moved => simp [follow, hread, hfst, kind.read_selected, Fate.andThen]
    | lost last => simp [follow, hread, hfst, kind.read_missing, Fate.andThen]

theorem remapAfterRemove_eq_follow (removed : ℕ) :
    kind.remapAfterRemove removed = kind.follow (Fate.afterRemove removed) := by
  funext reference
  rw [remapAfterRemove, follow]
  cases hread : kind.read reference with
  | none => rfl
  | some named =>
    obtain ⟨position, rest⟩ := named
    simp only [Fate.afterRemove]
    split_ifs with hlost hpast
    · rfl
    · rfl
    · exact (kind.selected_of_read hread).symm

end ReferenceKind

end CollideOScope.Morph
