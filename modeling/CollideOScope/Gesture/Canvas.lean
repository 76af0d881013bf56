import CollideOScope.Support.Checks
import CollideOScope.Support.Machine
import CollideOScope.Support.Words

/-!
# The frame transaction of the gesture canvas

A staged frame changes the live field and keeps one snapshot for a rollback.  A
commit counts a generation for a frame that the program held as well, and a
reset that keeps the field abandons an open frame with what it has drawn.

Parameters, cells and samples are given by the operations that the transaction
uses of them.
-/

namespace CollideOScope.Gesture

open List Checks

def gestureCanvasMaxEdge : ℕ := 2048

def gestureCanvasMaxCells : ℕ := 2100000

def gestureCanvasMaxSamplesPerUpdate : ℕ := 256

def maxGestureDecayTicks : ℕ := 4096

inductive GestureCanvasError
  | invalidDimensions (width height : ℕ)
  | canvasEdge (width height limit : ℕ)
  | cellCount (count limit : ℕ)
  | tooManySamples (count limit : ℕ)
  | arithmeticOverflow

structure GestureCanvasGrid where
  (width height cellCount : ℕ)

def GestureCanvasGrid.new (width height : ℕ) :
    Except GestureCanvasError GestureCanvasGrid := do
  refuse (width = 0 ∨ height = 0) (.invalidDimensions width height)
  refuse (gestureCanvasMaxEdge < width ∨ gestureCanvasMaxEdge < height)
    (.canvasEdge width height gestureCanvasMaxEdge)
  let cellCount ← require (checkedMulU64 width height) .arithmeticOverflow
  refuse (gestureCanvasMaxCells < cellCount) (.cellCount cellCount gestureCanvasMaxCells)
  return ⟨width, height, cellCount⟩

structure CanvasOps (P C E S : Type) where
  sanitized : P → P
  isExactEtchBypass : P → Bool
  fromEvent : E → S
  isInert : S → Bool
  blank : C
  decayCell : P → ℕ → C → C
  etchCell : S → P → GestureCanvasGrid → ℕ → C → C

structure GestureCanvasField (C : Type) where
  grid : GestureCanvasGrid
  cells : List C

namespace GestureCanvasField

variable {P C E S : Type} (ops : CanvasOps P C E S)

def new (grid : GestureCanvasGrid) : GestureCanvasField C :=
  ⟨grid, replicate grid.cellCount ops.blank⟩

def clear (field : GestureCanvasField C) : GestureCanvasField C :=
  { field with cells := field.cells.map fun _ => ops.blank }

def decay (field : GestureCanvasField C) (params : P) (ticks : ℕ) : GestureCanvasField C :=
  if ticks = 0 then field
  else { field with cells := field.cells.map (ops.decayCell (ops.sanitized params) ticks) }

def etch (field : GestureCanvasField C) (sample : S) (params : P) : GestureCanvasField C :=
  if ops.isInert sample || ops.isExactEtchBypass (ops.sanitized params) then field
  else
    { field with
      cells := field.cells.mapIdx (ops.etchCell sample (ops.sanitized params) field.grid) }

@[simp]
theorem clear_decay (field : GestureCanvasField C) (params : P) (ticks : ℕ) :
    (field.decay ops params ticks).clear ops = field.clear ops := by
  unfold decay
  split_ifs <;> simp [clear, Function.comp_def]

@[simp]
theorem clear_etch (field : GestureCanvasField C) (sample : S) (params : P) :
    (field.etch ops sample params).clear ops = field.clear ops := by
  unfold etch
  split_ifs <;> simp [clear]

end GestureCanvasField

structure GestureCanvasFrameInput (P E : Type) where
  referenceTick : ℕ
  programAdvances : Bool
  events : List E
  evaluatedParams : Option P

structure GestureCanvasFramePlan where
  decayTicks : ℕ := 0
  decayClamped : Bool := false
  appliedSamples : ℕ := 0
  inertSamples : ℕ := 0
  held : Bool := false

inductive GestureCanvasResetCause
  | patchGeneration | applyLook | sourceCut | sourceReplacement | resize
  | broadRevert | manualClear | exportCancelled

structure GestureCanvasResetDomains where
  (field decayClock : Bool)

def GestureCanvasResetDomains.forCause : GestureCanvasResetCause → GestureCanvasResetDomains
  | .sourceCut | .sourceReplacement => ⟨false, true⟩
  | _ => ⟨true, true⟩

structure GestureCanvasSnapshot (C : Type) where
  field : GestureCanvasField C
  lastTick : Option ℕ
  generation : ℕ

def GestureCanvasSnapshot.reset {P C E S : Type} (ops : CanvasOps P C E S)
    (memory : GestureCanvasSnapshot C) (domains : GestureCanvasResetDomains) :
    GestureCanvasSnapshot C where
  field := if domains.field then memory.field.clear ops else memory.field
  lastTick := if domains.decayClock then none else memory.lastTick
  generation := if domains.field then 0 else memory.generation

structure GestureCanvasState (P C S : Type) where
  params : P
  field : GestureCanvasField C
  lastTick : Option ℕ
  generation : ℕ
  lastReset : Option GestureCanvasResetCause
  staged : Option (GestureCanvasSnapshot C)
  samples : List S
  stagedPlan : GestureCanvasFramePlan
  stagedParams : P

def decayTicksForGap (gap : ℕ) : ℕ × Bool :=
  if maxGestureDecayTicks < gap then (maxGestureDecayTicks, true)
  else (gap, false)

namespace GestureCanvasState

variable {P C E S : Type} (ops : CanvasOps P C E S)

def new (grid : GestureCanvasGrid) (params : P) : GestureCanvasState P C S where
  params := ops.sanitized params
  field := .new ops grid
  lastTick := none
  generation := 0
  lastReset := none
  staged := none
  samples := []
  stagedPlan := {}
  stagedParams := ops.sanitized params

variable (s : GestureCanvasState P C S) (input : GestureCanvasFrameInput P E)

def setParams (params : P) : GestureCanvasState P C S := { s with params := ops.sanitized params }

def etchEvent (params : P) (s : GestureCanvasState P C S) (event : E) : GestureCanvasState P C S :=
  let sample := ops.fromEvent event
  if ops.isInert sample || ops.isExactEtchBypass params then
    { s with stagedPlan := { s.stagedPlan with inertSamples := s.stagedPlan.inertSamples + 1 } }
  else
    { s with
      field := s.field.etch ops sample params
      samples := s.samples ++ [sample]
      stagedPlan := { s.stagedPlan with appliedSamples := s.stagedPlan.appliedSamples + 1 } }

/-- The live part of the state, which a rollback restores. -/
def snapshot : GestureCanvasSnapshot C := ⟨s.field, s.lastTick, s.generation⟩

def openFrame : GestureCanvasState P C S :=
  { s with
    staged := some s.snapshot
    samples := []
    stagedParams := input.evaluatedParams.elim s.params ops.sanitized }

def advanceFrame : GestureCanvasState P C S :=
  let budget := decayTicksForGap (s.lastTick.elim 0 (input.referenceTick - ·))
  { input.events.foldl (etchEvent ops s.stagedParams) { s with
      field := s.field.decay ops s.stagedParams budget.1
      stagedPlan := { decayTicks := budget.1, decayClamped := budget.2 } } with
    lastTick := some input.referenceTick }

/-- `stage_frame` where no frame is staged. -/
def stageFrame : GestureCanvasState P C S × Except GestureCanvasError GestureCanvasFramePlan :=
  if gestureCanvasMaxSamplesPerUpdate < input.events.length then
    (s, .error (.tooManySamples input.events.length gestureCanvasMaxSamplesPerUpdate))
  else
    let opened := s.openFrame ops input
    if !input.programAdvances then
      ({ opened with stagedPlan := { held := true } }, .ok { held := true })
    else
      let staged := opened.advanceFrame ops input
      (staged, .ok staged.stagedPlan)

def commitStaged : GestureCanvasState P C S :=
  match s.staged with
  | some _ =>
    { s with
      staged := none
      generation := saturatingAddU64 s.generation 1 }
  | none => s

def discardStaged : GestureCanvasState P C S :=
  match s.staged with
  | some saved =>
    { s with
      field := saved.field
      lastTick := saved.lastTick
      generation := saved.generation
      staged := none
      samples := [] }
  | none => { s with samples := [] }

def applyResetDomains (domains : GestureCanvasResetDomains) : GestureCanvasState P C S :=
  if !domains.field && !domains.decayClock then s
  else
    let left := s.snapshot.reset ops domains
    { s with
      staged := none
      samples := []
      field := left.field
      lastTick := left.lastTick
      generation := left.generation }

def resetFor (cause : GestureCanvasResetCause) : GestureCanvasState P C S :=
  { s.applyResetDomains ops (.forCause cause) with lastReset := some cause }

def resize (width height : ℕ) : GestureCanvasState P C S × Except GestureCanvasError Unit :=
  match GestureCanvasGrid.new width height with
  | .error error => (s, .error error)
  | .ok grid => ({ s with field := .new ops grid }.resetFor ops .resize, .ok ())

end GestureCanvasState

inductive CanvasCall (P E : Type)
  | stageFrame (input : GestureCanvasFrameInput P E)
  | commitStaged | discardStaged
  | setParams (params : P)
  | resize (width height : ℕ)
  | resetFor (cause : GestureCanvasResetCause)

namespace GestureCanvasState

variable {P C E S : Type} (ops : CanvasOps P C E S)

variable (s : GestureCanvasState P C S) (memory : GestureCanvasSnapshot C)
variable (input : GestureCanvasFrameInput P E)

def step : CanvasCall P E → Option (GestureCanvasState P C S)
  | .stageFrame input => if s.staged.isSome then none else some (s.stageFrame ops input).1
  | .commitStaged => some s.commitStaged
  | .discardStaged => some s.discardStaged
  | .setParams params => some (s.setParams ops params)
  | .resize width height => some (s.resize ops width height).1
  | .resetFor cause => some (s.resetFor ops cause)

/-- What the canvas remembers once an open frame is ignored: a commit of a frame
that advances adds it, a reset clears its domains. -/
def remembered : CanvasCall P E → GestureCanvasSnapshot C
  | .commitStaged =>
    if s.staged.isSome && !s.stagedPlan.held then ⟨s.field, s.lastTick, memory.generation + 1⟩
    else memory
  | .resize width height =>
    match GestureCanvasGrid.new width height with
    | .error _ => memory
    | .ok grid => ⟨(GestureCanvasField.new ops grid).clear ops, none, 0⟩
  | .resetFor cause => memory.reset ops (.forCause cause)
  | _ => memory

def canvasMachine (grid : GestureCanvasGrid) (params : P) :
    Machine (GestureCanvasState P C S) (CanvasCall P E) :=
  ⟨(· = new ops grid params), step ops⟩

def canvasRuns (grid : GestureCanvasGrid) (params : P) :
    Machine (GestureCanvasState P C S × GestureCanvasSnapshot C) (CanvasCall P E) :=
  (canvasMachine ops grid params).observe (new ops grid params).snapshot
    fun memory s call _ => remembered ops s memory call

/-- A frame that is held is not committed, and a reset that keeps the field does
not meet an open frame that advances. -/
def Clean : CanvasCall P E → Prop
  | .commitStaged => s.staged.isSome → s.stagedPlan.held = false ∧ s.generation < u64Max
  | .resetFor cause => s.staged.isSome → s.stagedPlan.held = false →
    (GestureCanvasResetDomains.forCause cause).field = true
  | _ => True

/-- The live part is what is remembered, but for an open frame that advances. -/
def Tracks : Prop :=
  (s.staged = none → s.snapshot = memory) ∧
    ∀ saved ∈ s.staged, saved = memory ∧ s.generation = memory.generation ∧
      s.field.clear ops = memory.field.clear ops ∧
      (s.stagedPlan.held = true → s.snapshot = memory)

theorem foldl_etchEvent (params : P) (events : List E) :
    let etched := events.foldl (etchEvent ops params) s
    etched.staged = s.staged ∧ etched.generation = s.generation ∧
      etched.field.clear ops = s.field.clear ops ∧
      etched.params = s.params ∧ etched.lastReset = s.lastReset ∧
      etched.stagedPlan.held = s.stagedPlan.held := by
  induction events generalizing s with
  | nil => exact ⟨rfl, rfl, rfl, rfl, rfl, rfl⟩
  | cons event events ih =>
    obtain ⟨hstaged, hgen, hclear, hparams, hreset, hheld⟩ := ih (etchEvent ops params s event)
    refine ⟨hstaged.trans ?_, hgen.trans ?_, hclear.trans ?_,
      hparams.trans ?_, hreset.trans ?_, hheld.trans ?_⟩ <;>
      simp only [etchEvent] <;> split_ifs <;> simp

theorem advanceFrame_spec :
    (s.advanceFrame ops input).staged = s.staged ∧
      (s.advanceFrame ops input).generation = s.generation ∧
      (s.advanceFrame ops input).field.clear ops = s.field.clear ops ∧
      (s.advanceFrame ops input).params = s.params ∧
      (s.advanceFrame ops input).lastReset = s.lastReset ∧
      (s.advanceFrame ops input).stagedPlan.held = false := by
  obtain ⟨hstaged, hgen, hclear, hrest⟩ := foldl_etchEvent ops _ s.stagedParams input.events
  exact ⟨hstaged, hgen, hclear.trans (s.field.clear_decay ops _ _), hrest⟩

variable {ops s memory} {t : GestureCanvasState P C S}

theorem stageFrame_tracks (h : Tracks ops s memory) (hclosed : s.staged = none) :
    Tracks ops (s.stageFrame ops input).1 memory := by
  have hmem := h.1 hclosed
  unfold stageFrame
  split_ifs with hmany hheld
  · exact h
  · refine ⟨by simp [openFrame], ?_⟩
    rintro saved ⟨⟩
    exact ⟨hmem, hmem ▸ rfl, hmem ▸ rfl, fun _ => hmem⟩
  · obtain ⟨hstaged, hgen, hclear, -, -, hheld⟩ :=
      advanceFrame_spec ops (s.openFrame ops input) input
    refine ⟨fun hnone => (by cases hstaged.symm.trans hnone), ?_⟩
    intro saved hsaved
    obtain rfl := Option.some.inj (hstaged.symm.trans hsaved)
    refine ⟨hmem, hgen.trans (hmem ▸ rfl), hclear.trans (hmem ▸ rfl), ?_⟩
    simp [hheld]

theorem reset_tracks {domains : GestureCanvasResetDomains}
    (h : Tracks ops s memory) (hclock : domains.decayClock = true)
    (hclean : s.staged.isSome → s.stagedPlan.held = false → domains.field = true) :
    s.snapshot.reset ops domains = memory.reset ops domains := by
  cases hstaged : s.staged with
  | none => rw [h.1 hstaged]
  | some saved =>
    obtain ⟨-, -, hclear, hmem⟩ := h.2 saved hstaged
    cases hheld : s.stagedPlan.held with
    | true => rw [hmem hheld]
    | false =>
      have hfield := hclean (by rw [hstaged]; rfl) hheld
      simp [GestureCanvasSnapshot.reset, hclock, hfield, snapshot, hclear]

theorem step_tracks {call : CanvasCall P E} (h : Tracks ops s memory)
    (hclean : Clean s call) (hstep : step ops s call = some t) :
    Tracks ops t (remembered ops s memory call) := by
  cases call with
  | stageFrame input =>
    simp only [step] at hstep
    split_ifs at hstep with hopen
    cases hstep
    exact stageFrame_tracks input h (by simpa using hopen)
  | commitStaged =>
    cases hstep
    cases hstaged : s.staged with
    | none => simpa [commitStaged, hstaged, remembered] using h
    | some saved =>
      obtain ⟨hheld, hlt⟩ := hclean (by rw [hstaged]; rfl)
      have hgen := (h.2 saved hstaged).2.1
      refine ⟨fun _ => ?_, by simp [commitStaged, hstaged]⟩
      have hcnt : saturatingAddU64 s.generation 1 = memory.generation + 1 := by
        rw [saturatingAddU64_of_le hlt, hgen]
      simp [commitStaged, hstaged, remembered, hheld, snapshot, hcnt]
  | discardStaged =>
    cases hstep
    cases hstaged : s.staged with
    | none =>
      refine ⟨fun _ => ?_, by simp [discardStaged, hstaged]⟩
      rw [← h.1 hstaged]
      simp [discardStaged, hstaged, snapshot, remembered]
    | some saved =>
      obtain ⟨rfl, -⟩ := h.2 saved hstaged
      refine ⟨fun _ => ?_, by simp [discardStaged, hstaged]⟩
      simp [discardStaged, hstaged, snapshot, remembered]
  | setParams params =>
    cases hstep
    exact h
  | resize width height =>
    cases hstep
    simp only [resize, remembered]
    split
    · exact h
    · exact ⟨fun _ => rfl, by simp [resetFor, applyResetDomains,
        GestureCanvasResetDomains.forCause]⟩
  | resetFor cause =>
    cases hstep
    have hclock : (GestureCanvasResetDomains.forCause cause).decayClock = true := by
      cases cause <;> rfl
    have hreset := reset_tracks h hclock hclean
    refine ⟨fun _ => ?_, ?_⟩
    · rw [remembered, ← hreset]
      simp [resetFor, applyResetDomains, hclock, snapshot]
    · simp [resetFor, applyResetDomains, hclock]

/-- The state without what only an open frame is asked for. -/
def visible (s : GestureCanvasState P C S) : GestureCanvasState P C S :=
  { s with samples := [], stagedPlan := {}, stagedParams := s.params }

theorem stageFrame_visible :
    (s.visible.stageFrame ops input).1.visible = (s.stageFrame ops input).1.visible := by
  unfold stageFrame
  by_cases hmany : gestureCanvasMaxSamplesPerUpdate < input.events.length
  · simp only [if_pos hmany]
    rfl
  · simp only [if_neg hmany]
    by_cases hheld : (!input.programAdvances) = true
    · simp only [if_pos hheld]
      rfl
    · simp only [if_neg hheld]
      rfl

theorem step_visible (s : GestureCanvasState P C S) (call : CanvasCall P E) :
    (step ops s.visible call).map visible = (step ops s call).map visible := by
  cases call with
  | stageFrame input =>
    have hstaged : s.visible.staged = s.staged := rfl
    simp only [step, hstaged]
    split_ifs
    · rfl
    · exact congrArg some (stageFrame_visible input)
  | commitStaged => cases hstaged : s.staged <;>
      simp [step, commitStaged, visible, hstaged]
  | discardStaged => cases hstaged : s.staged <;>
      simp [step, discardStaged, visible, hstaged]
  | setParams params => rfl
  | resize width height =>
    simp only [step, resize]
    split
    · rfl
    · simp [resetFor, applyResetDomains, GestureCanvasResetDomains.forCause, visible, snapshot]
  | resetFor cause =>
    simp only [step, resetFor, applyResetDomains]
    split_ifs <;> rfl

variable {grid : GestureCanvasGrid} {params : P}

theorem exec_visible (s : GestureCanvasState P C S) (calls : List (CanvasCall P E)) :
    ((canvasMachine ops grid params).exec s.visible calls).map visible =
      ((canvasMachine ops grid params).exec s calls).map visible := by
  induction calls generalizing s with
  | nil => rfl
  | cons call calls ih =>
    have hrest : ∀ next : Option (GestureCanvasState P C S),
        (next.bind fun t => (canvasMachine ops grid params).exec t calls).map visible =
        (next.map visible).bind fun t =>
          ((canvasMachine ops grid params).exec t calls).map visible := by
      intro next
      cases next with
      | none => rfl
      | some t => exact (ih t).symm
    simp only [Machine.exec, hrest]
    exact congrArg (Option.bind · _) (step_visible s call)

theorem exec_eq_of_visible (h : s.visible = t.visible) (calls : List (CanvasCall P E)) :
    ((canvasMachine ops grid params).exec s calls).map visible =
      ((canvasMachine ops grid params).exec t calls).map visible := by
  rw [← exec_visible s, h, exec_visible]

theorem discard_stageFrame (hclosed : s.staged = none) :
    (s.stageFrame ops input).1.discardStaged.visible = s.visible := by
  unfold stageFrame
  split_ifs
  · simp [discardStaged, hclosed, visible]
  · simp [discardStaged, openFrame, hclosed, visible, snapshot]
  · obtain ⟨hstaged, -, -, hparams, hreset, -⟩ :=
      advanceFrame_spec ops (s.openFrame ops input) input
    dsimp only
    generalize (s.openFrame ops input).advanceFrame ops input = t at *
    have hsaved : t.staged = some s.snapshot := hstaged
    simp [discardStaged, hsaved, hparams, hreset, openFrame, visible, snapshot, hclosed]

def KeepsFrame : CanvasCall P E → Prop
  | .setParams _ => True
  | .resize width height => ∃ error, GestureCanvasGrid.new width height = .error error
  | _ => False

theorem exec_discarded {opened : GestureCanvasState P C S}
    (h : opened.discardStaged.visible = s.visible) (inner post : List (CanvasCall P E))
    (hinner : ∀ call ∈ inner, KeepsFrame call) :
    ((canvasMachine ops grid params).exec opened (inner ++ .discardStaged :: post)).map visible =
      ((canvasMachine ops grid params).exec s (inner ++ post)).map visible := by
  induction inner generalizing opened s with
  | nil => exact exec_eq_of_visible h post
  | cons call inner ih =>
    obtain ⟨hcall, hrest⟩ := forall_mem_cons.mp hinner
    cases call with
    | setParams first =>
      refine ih ?_ hrest
      have hcomm : (opened.setParams ops first).discardStaged =
          opened.discardStaged.setParams ops first := by
        cases hstaged : opened.staged <;>
          simp [discardStaged, setParams, hstaged]
      rw [hcomm]
      exact congrArg (fun s => (s.setParams ops first).visible) h
    | resize width height =>
      obtain ⟨error, herr⟩ := hcall
      have hsame (s : GestureCanvasState P C S) :
          (s.resize ops width height).1 = s := by rw [resize, herr]
      simp only [cons_append, Machine.exec, canvasMachine, step, hsame]
      exact ih h hrest
    | _ => exact hcall.elim

end GestureCanvasState

/-- A field of one cell that counts its samples. -/
def countingOps : CanvasOps Unit ℕ Unit Unit where
  sanitized := id
  isExactEtchBypass _ := false
  fromEvent := id
  isInert _ := false
  blank := 0
  decayCell _ _ := id
  etchCell _ _ _ _ := (· + 1)

def stagedCall (programAdvances : Bool) : CanvasCall Unit Unit :=
  .stageFrame ⟨0, programAdvances, [()], none⟩

open GestureCanvasState

def cleared : GestureCanvasState Unit ℕ Unit := new countingOps ⟨1, 1, 1⟩ ()

end CollideOScope.Gesture
