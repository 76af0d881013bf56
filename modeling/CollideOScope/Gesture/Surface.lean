import CollideOScope.Gesture.Streams
import CollideOScope.Support.WholePart
import Mathlib.Data.List.Chain

/-!
# Strokes from controller scalars

Controllers send independent scalars.  A surface turns contact edges and the
motion of a frame into the samples of one stroke, which are normalized and
recorded.  The surface, the adapter and the track each say when the stroke is
open; they agree after every call.

Division and `hypot` only shape the direction of a sample, so they are left as
parameters.
-/

namespace CollideOScope.Gesture

open Nat Checks GestureStreamValidator List Option F32

structure RawGestureSample where
  stroke : UInt8
  phase : GesturePhase
  mode : GestureMode
  position : F32 × F32
  pressure : F32
  direction : F32 × F32

inductive GestureOrigin
  | nativePointer | phone | midi | osc

inductive GestureIngestError
  | strokeOutOfRange (origin : GestureOrigin) (stroke : UInt8)
  | nonFinitePosition (origin : GestureOrigin)
  | nonFinitePressure (origin : GestureOrigin)

def quantizeUnit (value : F32) : UInt16 :=
  if value.isFinite then .ofNat (((value.clamp 0 1) * 65535).roundHalfAway.toNat 65535)
  else 0

def quantizeSigned (value : F32) : Int16 :=
  let rounded := ((value.clamp (-1) 1) * 32767).roundHalfAway
  if !value.isFinite then 0
  else if rounded.isNegative then .ofInt (-((-rounded).toNat 32768 : ℤ))
  else .ofInt (rounded.toNat 32767)

section

variable (div hypot : F32 → F32 → F32)

def unitDirection (direction : F32 × F32) : F32 × F32 :=
  let x := direction.1.finiteOr 0
  let y := direction.2.finiteOr 0
  let scale := if x.abs.lt y.abs then y.abs else x.abs
  if scale.le 0 then (0, 0)
  else
    let x := div x scale
    let y := div y scale
    let length := hypot x y
    if lt 0 length then (div x length, div y length) else (0, 0)

/-- `GestureEvent::quantized`, of a sample. -/
def RawGestureSample.quantized (raw : RawGestureSample) : GestureEvent where
  referenceTick := 0
  stroke := raw.stroke
  phase := raw.phase
  mode := raw.mode
  x := quantizeUnit raw.position.1
  y := quantizeUnit raw.position.2
  pressure := quantizeUnit raw.pressure
  directionX := quantizeSigned (unitDirection div hypot raw.direction).1
  directionY := quantizeSigned (unitDirection div hypot raw.direction).2

def normalizeGestureInput (origin : GestureOrigin) (raw : RawGestureSample)
    (tick : UInt32) : Except GestureIngestError GestureEvent := do
  refuse (maxActiveStrokes ≤ raw.stroke.toNat) (.strokeOutOfRange origin raw.stroke)
  refuse (raw.position.1.isFinite = false ∨ raw.position.2.isFinite = false)
    (.nonFinitePosition origin)
  refuse (raw.pressure.isFinite = false) (.nonFinitePressure origin)
  return (raw.quantized div hypot).at' tick

end

inductive GestureControlInput
  | x (value : F32)
  | y (value : F32)
  | pressure (value : F32)
  | contact (isDown : Bool)

def GestureControlInput.isFinite : GestureControlInput → Bool
  | x value | y value | pressure value => value.isFinite
  | contact _ => true

structure GestureControlSurface where
  stroke : UInt8
  mode : GestureMode
  position : F32 × F32
  pressure : F32
  emitted : Option (F32 × F32)

namespace GestureControlSurface

def default : GestureControlSurface := ⟨0, .push, (0.5, 0.5), 1, none⟩

def withStroke (surface : GestureControlSurface) (stroke : UInt8) : GestureControlSurface :=
  { surface with stroke }

def isOpen (surface : GestureControlSurface) : Bool := surface.emitted.isSome

def sample (surface : GestureControlSurface) (phase : GesturePhase)
    (direction : F32 × F32) : RawGestureSample :=
  ⟨surface.stroke, phase, surface.mode, surface.position, surface.pressure, direction⟩

def travelled (surface : GestureControlSurface) (previous : F32 × F32) : F32 × F32 :=
  (surface.position.1 - previous.1, surface.position.2 - previous.2)

def apply (surface : GestureControlSurface) :
    GestureControlInput → Option RawGestureSample × GestureControlSurface
  | .x value => (none, { surface with position := (value, surface.position.2) })
  | .y value => (none, { surface with position := (surface.position.1, value) })
  | .pressure value => (none, { surface with pressure := value })
  | .contact true =>
    if surface.isOpen then (none, surface)
    else
      let surface := { surface with emitted := some surface.position }
      (some (surface.sample .begin (0, 0)), surface)
  | .contact false =>
    match surface.emitted with
    | none => (none, surface)
    | some previous =>
      (some (surface.sample .end (surface.travelled previous)), { surface with emitted := none })

def sampleMotion (surface : GestureControlSurface) :
    Option RawGestureSample × GestureControlSurface :=
  match surface.emitted with
  | none => (none, surface)
  | some previous =>
    let direction := surface.travelled previous
    if direction.1.eq 0 && direction.2.eq 0 then (none, surface)
    else (some (surface.sample .move direction), { surface with emitted := some surface.position })

def release (surface : GestureControlSurface) : Option RawGestureSample × GestureControlSurface :=
  surface.apply (.contact false)

end GestureControlSurface

inductive SurfaceCall
  | apply (input : GestureControlInput)
  | setMode (mode : GestureMode)
  | sampleMotion | release

namespace SurfaceCall

def perform (surface : GestureControlSurface) :
    SurfaceCall → Option RawGestureSample × GestureControlSurface
  | apply input => surface.apply input
  | setMode mode => (none, { surface with mode })
  | sampleMotion => surface.sampleMotion
  | release => surface.release

def isFinite : SurfaceCall → Bool
  | apply input => input.isFinite
  | _ => true

end SurfaceCall

abbrev Samples := List (UInt64 × RawGestureSample)

structure SurfaceRun where
  samples : Samples
  surface : GestureControlSurface

def SurfaceRun.next (run : SurfaceRun) (call : UInt64 × SurfaceCall) : SurfaceRun where
  samples := run.samples ++ ((call.2.perform run.surface).1.map (Prod.mk call.1)).toList
  surface := (call.2.perform run.surface).2

def surfaceRun (stroke : UInt8) (calls : List (UInt64 × SurfaceCall)) : SurfaceRun :=
  calls.foldl SurfaceRun.next ⟨[], .withStroke .default stroke⟩

/-- A sample is normalized and recorded; the answer is whether it was. -/
def ingestSample (div hypot : F32 → F32 → F32) (origin : GestureOrigin)
    (track : GestureTrack) (sample : UInt64 × RawGestureSample) :
    Bool × GestureTrack :=
  match normalizeGestureInput div hypot origin sample.2 sample.1.toUInt32 with
  | .error _ => (false, track)
  | .ok event =>
    match track.recordAccepted sample.1 event with
    | (.ok true, track) => (true, track)
    | (_, track) => (false, track)

def ingestSamples (div hypot : F32 → F32 → F32) (origin : GestureOrigin)
    (samples : Samples) : Bool × GestureTrack :=
  samples.foldl (fun result sample =>
    let next := ingestSample div hypot origin result.2 sample
    (result.1 && next.1, next.2)) (true, .default)

structure FiniteSurface (surface : GestureControlSurface) : Prop where
  x : surface.position.1.isFinite
  y : surface.position.2.isFinite
  pressure : surface.pressure.isFinite
  emitted : ∀ previous ∈ surface.emitted, previous.1.isFinite ∧ previous.2.isFinite

def SamePosition (p q : F32 × F32) : Prop := p.1.eq q.1 ∧ p.2.eq q.2

theorem sub_eq_zero_of_eq {a b : F32} (ha : a.isFinite) (hb : b.isFinite)
    (h : a.eq b) : (a - b).eq 0 := by
  have hnan := isNan_of_isFinite ha
  have hnan' := isNan_of_isFinite hb
  simp only [F32.eq, hnan, hnan', Bool.not_false, Bool.true_and, beq_iff_eq]
    at h
  have hval : a.value = b.value := by
    refine le_antisymm (value_le_of_le ?_) (value_le_of_le ?_)
    · simp [F32.le, hnan, hnan', h]
    · simp [F32.le, hnan, hnan', h]
  by_cases hsign : a.isNegative = false ∨ b.isNegative
  · have hround := sub_eq_round ha hb (hsign.imp_right Or.inl)
    rw [hround, hval, sub_self]
    decide +kernel
  · rw [not_or, Bool.not_eq_false, Bool.not_eq_true] at hsign
    obtain ⟨hneg, hpos⟩ := hsign
    rw [key, key, hneg, hpos] at h
    simp only [if_true, Bool.false_eq_true, if_false] at h
    have hbits : a.bits.toNat = 2 ^ 31 ∧ b.bits.toNat = 0 := by
      simp only [isNegative, magnitude, decide_eq_true_eq, decide_eq_false_iff_not] at hneg hpos h
      have hlt := a.bits.toNat_lt
      omega
    have hleft : a = ⟨0x80000000⟩ := congrArg F32.mk (UInt32.toNat_inj.mp hbits.1)
    have hright : b = ⟨0⟩ := congrArg F32.mk (UInt32.toNat_inj.mp hbits.2)
    rw [hleft, hright]
    decide +kernel

/-- A call emits nothing and leaves the contact, or one sample whose phase fits
it. -/
structure Emits (surface : GestureControlSurface)
    (result : Option RawGestureSample × GestureControlSurface) : Prop where
  finite : FiniteSurface result.2
  stroke : result.2.stroke = surface.stroke
  silent : result.1 = none → result.2.emitted = surface.emitted
  sample : ∀ raw ∈ result.1, raw.stroke = surface.stroke ∧
    raw.position = result.2.position ∧ raw.pressure = result.2.pressure ∧
    (surface.isOpen = true ↔ raw.phase ≠ .begin) ∧
    result.2.isOpen = decide (raw.phase ≠ .end) ∧
    (raw.phase ≠ .end → result.2.emitted = some raw.position) ∧
    (raw.phase = .move → ∀ previous ∈ surface.emitted, ¬SamePosition raw.position previous)

variable {surface : GestureControlSurface}

theorem emits_none {next : GestureControlSurface} (h : FiniteSurface next)
    (hstroke : next.stroke = surface.stroke) (hemit : next.emitted = surface.emitted) :
    Emits surface (none, next) :=
  ⟨h, hstroke, fun _ => hemit, fun _ hraw => by cases hraw⟩

open GestureControlSurface

theorem emits_apply (h : FiniteSurface surface) {input : GestureControlInput}
    (hinp : input.isFinite) : Emits surface (surface.apply input) := by
  cases input with
  | x value => exact emits_none ⟨hinp, h.y, h.pressure, h.emitted⟩ rfl rfl
  | y value => exact emits_none ⟨h.x, hinp, h.pressure, h.emitted⟩ rfl rfl
  | pressure value => exact emits_none ⟨h.x, h.y, hinp, h.emitted⟩ rfl rfl
  | contact isDown =>
    cases isDown with
    | true =>
      by_cases hopen : surface.isOpen
      · rw [show surface.apply (.contact true) = (none, surface) from
          if_pos hopen]
        exact emits_none h rfl rfl
      · rw [show surface.apply (.contact true) =
          (some (surface.sample .begin (0, 0)),
            { surface with emitted := some surface.position }) from
          if_neg hopen]
        refine ⟨⟨h.x, h.y, h.pressure, ?_⟩, rfl, fun hnone => ?_, ?_⟩
        · rintro _ ⟨⟩
          exact ⟨h.x, h.y⟩
        · cases hnone
        · rintro _ ⟨⟩
          exact ⟨rfl, rfl, rfl, by
            simpa [sample] using hopen, rfl,
            fun _ => rfl, fun hmove => by cases hmove⟩
    | false =>
      cases hemit : surface.emitted with
      | none =>
        rw [show surface.apply (.contact false) = (none, surface) by
          simp [apply, hemit]]
        exact emits_none h rfl rfl
      | some previous =>
        rw [show surface.apply (.contact false) =
          (some (surface.sample .end (surface.travelled previous)),
            { surface with emitted := none }) by
          simp [apply, hemit]]
        refine ⟨⟨h.x, h.y, h.pressure, fun _ hp => by cases hp⟩, rfl,
          fun hnone => (by cases hnone), ?_⟩
        rintro _ ⟨⟩
        exact ⟨rfl, rfl, rfl, by simp [isOpen, sample, hemit], rfl,
          fun hend => absurd rfl hend, fun hmove => by cases hmove⟩

theorem emits_sampleMotion (h : FiniteSurface surface) : Emits surface surface.sampleMotion := by
  unfold sampleMotion
  cases hemit : surface.emitted with
  | none => exact emits_none h rfl rfl
  | some previous =>
    dsimp only
    split
    · exact emits_none h rfl rfl
    · next hmoved =>
        refine ⟨⟨h.x, h.y, h.pressure, ?_⟩, rfl, fun hnone => (by cases hnone), ?_⟩
        · rintro _ ⟨⟩
          exact ⟨h.x, h.y⟩
        · rintro _ ⟨⟩
          refine ⟨rfl, rfl, rfl, by simp [isOpen, sample, hemit], rfl, fun _ => rfl, ?_⟩
          rintro - other hother ⟨hx, hy⟩
          obtain ⟨hfst, hsnd⟩ := h.emitted other hother
          obtain rfl := some.inj (hemit.symm.trans hother)
          apply hmoved
          rw [Bool.and_eq_true]
          exact ⟨sub_eq_zero_of_eq h.x hfst hx, sub_eq_zero_of_eq h.y hsnd hy⟩

theorem emits_perform (h : FiniteSurface surface) {call : SurfaceCall}
    (hcall : call.isFinite) : Emits surface (call.perform surface) := by
  cases call with
  | apply input => exact emits_apply h hcall
  | setMode mode => exact emits_none ⟨h.x, h.y, h.pressure, h.emitted⟩ rfl rfl
  | sampleMotion => exact emits_sampleMotion h
  | release =>
    have hrelease : GestureControlInput.isFinite (.contact false) := rfl
    exact emits_apply h hrelease

/-- The track has taken the samples, and its mask says whether the stroke is
open. -/
structure Follows (stroke : UInt8) (samples : Samples) (isOpen : Bool)
    (track : GestureTrack) : Prop where
  length : track.events.length = samples.length
  origin : track.originTick = samples.head?.map Prod.fst
  watermark : ∀ tick ∈ track.validator.lastTick,
    ∃ first ∈ samples.head?, ∃ last ∈ samples.getLast?, tick.toNat = last.1.toNat - first.1.toNat
  mask : track.validator.openStrokes = if isOpen then 1#16 <<< stroke.toNat else 0

variable {stroke : UInt8} {isOpen : Bool} {samples : Samples} {event : GestureEvent}

theorem nextOpenStrokes_follows (hstroke : stroke.toNat < 16) {v : GestureStreamValidator}
    (hmask : v.openStrokes = if isOpen then 1#16 <<< stroke.toNat else 0)
    (hev : event.stroke = stroke) (hph : isOpen = true ↔ event.phase ≠ .begin) :
    v.nextOpenStrokes event = .ok (if event.phase ≠ .end then 1#16 <<< stroke.toNat else 0) := by
  have hbit : ¬1#16 <<< stroke.toNat = 0#16 := by
    intro h
    have hset := getLsbD_bit (i := stroke.toNat) hstroke
    rw [h] at hset
    simp at hset
  unfold nextOpenStrokes
  subst hev
  cases hcase : event.phase with
  | begin =>
    obtain rfl : isOpen = false := by simpa [hcase] using hph
    rw [if_neg Bool.false_ne_true] at hmask
    have hcnt : ¬maxActiveStrokes ≤ v.openStrokeCount := by
      rw [openStrokeCount, hmask]
      decide
    simp [hmask, hcnt, refuse]
  | move =>
    obtain rfl : isOpen = true := by simpa [hcase] using hph
    rw [if_pos rfl] at hmask
    simp [hmask, hbit, refuse]
  | «end» =>
    obtain rfl : isOpen = true := by simpa [hcase] using hph
    rw [if_pos rfl] at hmask
    simp [hmask, hbit, refuse, BitVec.and_not_self]

theorem Follows.record (hstroke : stroke.toNat < 16) {track : GestureTrack}
    (h : Follows stroke samples isOpen track) (hroom : samples.length < maxGestureEvents)
    {sample : UInt64 × RawGestureSample} (hev : event.stroke = stroke)
    (hph : event.phase = sample.2.phase) (hopen : isOpen = true ↔ sample.2.phase ≠ .begin)
    (hlater : ∀ earlier ∈ samples, earlier.1 ≤ sample.1)
    (hwin : ∀ earlier ∈ samples, sample.1.toNat - earlier.1.toNat < 2 ^ 32) :
    ∃ track', track.recordAccepted sample.1 event = (.ok true, track') ∧
      Follows stroke (samples ++ [sample]) (decide (sample.2.phase ≠ .end)) track' := by
  set origin := track.originTick.getD sample.1 with horig
  have hfst : (∃ first ∈ samples.head?, origin = first.1) ∨ samples = [] ∧ origin = sample.1 := by
    rw [horig, h.origin]
    cases samples with
    | nil => exact Or.inr ⟨rfl, rfl⟩
    | cons first rest => exact Or.inl ⟨first, rfl, rfl⟩
  have hord : origin ≤ sample.1 := by
    rcases hfst with ⟨first, hmem, heq⟩ | ⟨-, heq⟩
    · exact heq ▸ hlater first (mem_of_mem_head? hmem)
    · exact heq ▸ UInt64.le_refl _
  have hsub : (sample.1 - origin).toNat = sample.1.toNat - origin.toNat :=
    UInt64.toNat_sub_of_le _ _ hord
  have hfits : (sample.1 - origin).toNat < 2 ^ 32 := by
    rw [hsub]
    rcases hfst with ⟨first, hmem, heq⟩ | ⟨-, heq⟩
    · exact heq ▸ hwin first (mem_of_mem_head? hmem)
    · rw [heq, Nat.sub_self]
      decide
  have htick : (sample.1 - origin).toUInt32.toNat = sample.1.toNat - origin.toNat := by
    rw [UInt64.toNat_toUInt32, Nat.mod_eq_of_lt hfits, hsub]
  set stamped := event.at' (sample.1 - origin).toUInt32 with hstamped
  have hstampedPhase : isOpen = true ↔ stamped.phase ≠ .begin := by
    rw [hopen, ← hph]
    rfl
  have hstampedStroke : stamped.stroke = stroke := hev
  have hopenStrokes := nextOpenStrokes_follows hstroke h.mask hstampedStroke hstampedPhase
  have hcheck : track.validator.checkTick stamped = .ok () := by
    rw [checkTick_ok]
    intro previous hprev
    obtain ⟨first, hmem, last, hlast, heq⟩ := h.watermark previous hprev
    have hsame : origin = first.1 := by
      rcases hfst with ⟨other, hother, heq⟩ | ⟨rfl, -⟩
      · rw [heq, some.inj (hother.symm.trans hmem)]
      · cases hmem
    have hle := UInt64.le_iff_toNat_le.mp (hlater last (mem_of_getLast? hlast))
    rw [UInt32.le_iff_toNat_le, heq]
    change _ ≤ (sample.1 - origin).toUInt32.toNat
    rw [htick, hsame]
    omega
  have hacc : track.validator.accept stamped =
      .ok ⟨if stamped.phase ≠ .end then 1#16 <<< stroke.toNat else 0,
        some stamped.referenceTick⟩ := by
    simp only [accept, bind_ok, refuse_ok, exists_unit, pure_ok]
    refine ⟨?_, hcheck, _, hopenStrokes, rfl⟩
    change ¬16 ≤ event.stroke.toNat
    rw [hev]
    omega
  have hstamp : track.stamp sample.1 event = .ok (origin, stamped,
      ⟨if stamped.phase ≠ .end then 1#16 <<< stroke.toNat else 0, some stamped.referenceTick⟩) := by
    simp only [GestureTrack.stamp, bind_ok, refuse_ok, exists_unit, pure_ok]
    exact ⟨UInt64.not_lt.mpr hord, not_le.mpr hfits, _, hacc, rfl⟩
  have hfew : ¬maxGestureEvents ≤ track.events.length := by
    rw [h.length]
    exact not_le.mpr hroom
  have hrec : track.recordAccepted sample.1 event = (.ok true,
      { track with
        originTick := some origin
        events := track.events ++ [stamped]
        validator :=
          ⟨if stamped.phase ≠ .end then 1#16 <<< stroke.toNat else 0,
            some stamped.referenceTick⟩ }) := by
    rw [GestureTrack.recordAccepted, hstamp]
    exact if_neg hfew
  refine ⟨_, hrec, ?_, ?_, ?_, ?_⟩
  · simp [h.length]
  · rcases hfst with ⟨first, hmem, heq⟩ | ⟨rfl, heq⟩
    · rw [heq, head?_append, hmem]
      rfl
    · rw [heq]
      rfl
  · rintro _ ⟨⟩
    rcases hfst with ⟨first, hmem, heq⟩ | ⟨rfl, heq⟩
    · exact ⟨first, by rw [head?_append, hmem]; rfl, sample, getLast?_concat, heq ▸ htick⟩
    · exact ⟨sample, rfl, sample, rfl, htick.trans (by rw [heq])⟩
  · have hsame : stamped.phase = sample.2.phase := hph
    simp [hsame]

/-- The ticks do not decrease and stay in a window of 32 bits. -/
def InWindow (samples : Samples) : Prop :=
  samples.Pairwise fun a b => a.1 ≤ b.1 ∧ b.1.toNat - a.1.toNat < 2 ^ 32

instance (samples : Samples) : Decidable (InWindow samples) :=
  inferInstanceAs (Decidable (List.Pairwise _ _))

/-- Of two moves next to each other the later one has moved. -/
def Moved (a b : UInt64 × RawGestureSample) : Prop :=
  a.2.phase = .move → b.2.phase = .move → ¬SamePosition b.2.position a.2.position

section

variable {div hypot : F32 → F32 → F32} {origin : GestureOrigin}

/-- What the surface, the samples and the track say of the stroke. -/
structure Authored (div hypot : F32 → F32 → F32) (origin : GestureOrigin)
    (stroke : UInt8) (run : SurfaceRun) : Prop where
  finite : FiniteSurface run.surface
  stroke_eq : run.surface.stroke = stroke
  shape : StrokeShape run.surface.isOpen (run.samples.map (·.2.phase))
  held : ∀ last ∈ run.samples.getLast?, last.2.phase = .move →
    run.surface.emitted = some last.2.position
  moved : run.samples.IsChain Moved
  recorded : (ingestSamples div hypot origin run.samples).1 = true
  follows : Follows stroke run.samples run.surface.isOpen
    (ingestSamples div hypot origin run.samples).2

theorem authored_new : Authored div hypot origin stroke
    ⟨[], .withStroke .default stroke⟩ where
  finite := by
    have hhalf : isFinite 0.5 = true := by decide +kernel
    have hone : isFinite 1 = true := by decide +kernel
    refine ⟨hhalf, hhalf, hone, ?_⟩
    intro _ h
    cases h
  stroke_eq := rfl
  shape := .nil
  held _ h := by cases h
  moved := .nil
  recorded := rfl
  follows := by
    refine ⟨rfl, rfl, ?_, rfl⟩
    intro _ h
    cases h

theorem ingestSamples_snoc (samples : Samples) (sample : UInt64 × RawGestureSample) :
    ingestSamples div hypot origin (samples ++ [sample]) =
      ((ingestSamples div hypot origin samples).1 &&
        (ingestSample div hypot origin (ingestSamples div hypot origin samples).2 sample).1,
        (ingestSample div hypot origin (ingestSamples div hypot origin samples).2 sample).2) := by
  simp [ingestSamples]

theorem normalizeGestureInput_ok {raw : RawGestureSample} (hstroke : raw.stroke.toNat < 16)
    (hx : raw.position.1.isFinite) (hy : raw.position.2.isFinite)
    (hpressure : raw.pressure.isFinite) (tick : UInt32) :
    normalizeGestureInput div hypot origin raw tick = .ok ((raw.quantized div hypot).at' tick) := by
  simp only [normalizeGestureInput, bind_ok, refuse_ok, exists_unit, pure_ok]
  refine ⟨not_le.mpr hstroke, ?_, ?_, trivial⟩
  · simp [hx, hy]
  · simp [hpressure]

theorem Authored.next (hstroke : stroke.toNat < 16) {run : SurfaceRun}
    (h : Authored div hypot origin stroke run) {call : UInt64 × SurfaceCall}
    (hcall : call.2.isFinite) (hwin : InWindow (run.next call).samples)
    (hroom : (run.next call).samples.length ≤ maxGestureEvents) :
    Authored div hypot origin stroke (run.next call) := by
  have hemits := emits_perform h.finite hcall
  unfold SurfaceRun.next at hwin hroom ⊢
  generalize call.2.perform run.surface = result at *
  obtain ⟨emitted, surface⟩ := result
  cases emitted with
  | none =>
    have hheld : surface.emitted = run.surface.emitted := hemits.silent rfl
    have hopen : surface.isOpen = run.surface.isOpen := by rw [isOpen, hheld, isOpen]
    simp only [map_none, toList_none, append_nil]
    exact ⟨hemits.finite, hemits.stroke.trans h.stroke_eq, hopen ▸ h.shape,
      fun last hlast hmove => hheld.trans (h.held last hlast hmove), h.moved,
      h.recorded, hopen ▸ h.follows⟩
  | some raw =>
    obtain ⟨hrawStroke, hpos, hpressure, hpre, hafter, hkept, hmoves⟩ := hemits.sample raw rfl
    have hrawStroke := hrawStroke.trans h.stroke_eq
    simp only [map_some, toList_some] at hwin hroom ⊢
    have hpairs := pairwise_append.mp hwin
    have hnormal : normalizeGestureInput div hypot origin raw
        call.1.toUInt32 = .ok ((raw.quantized div hypot).at' call.1.toUInt32) :=
      normalizeGestureInput_ok (hrawStroke.symm ▸ hstroke)
        (hpos ▸ hemits.finite.x) (hpos ▸ hemits.finite.y)
        (hpressure ▸ hemits.finite.pressure) _
    have hfew : run.samples.length < maxGestureEvents := by simpa [succ_le_iff] using hroom
    have hsample : (call.1, raw) ∈ [(call.1, raw)] := mem_singleton_self _
    obtain ⟨track, hrec, hfol⟩ : ∃ track,
        (ingestSamples div hypot origin run.samples).2.recordAccepted call.1
            ((raw.quantized div hypot).at' call.1.toUInt32) =
          (.ok true, track) ∧
        Follows stroke (run.samples ++ [(call.1, raw)]) (decide (raw.phase ≠ .end)) track :=
      h.follows.record hstroke hfew hrawStroke rfl hpre
        (fun earlier hmem => (hpairs.2.2 earlier hmem _ hsample).1)
        (fun earlier hmem => (hpairs.2.2 earlier hmem _ hsample).2)
    have hingest : ingestSample div hypot origin
        (ingestSamples div hypot origin run.samples).2 (call.1, raw) = (true, track) := by
      simp only [ingestSample, hnormal, hrec]
    refine ⟨hemits.finite, hemits.stroke.trans h.stroke_eq, ?_, ?_, ?_, ?_, ?_⟩
    · rw [map_append, hafter]
      exact h.shape.snoc hpre
    · intro last hlast hmove
      rw [getLast?_concat] at hlast
      obtain rfl := some.inj hlast
      exact hkept (by rw [hmove]; decide)
    · refine h.moved.append (.singleton _) ?_
      intro earlier hearl later hlater hmove hmove'
      cases hlater
      exact hmoves hmove' _ (h.held earlier hearl hmove)
    · rw [ingestSamples_snoc, h.recorded, hingest]
      rfl
    · rw [ingestSamples_snoc, hingest, hafter]
      exact hfol

theorem authored_run (hstroke : stroke.toNat < 16) (calls : List (UInt64 × SurfaceCall))
    (hfin : ∀ call ∈ calls, call.2.isFinite) (hwin : InWindow (surfaceRun stroke calls).samples)
    (hroom : (surfaceRun stroke calls).samples.length ≤ maxGestureEvents) :
    Authored div hypot origin stroke (surfaceRun stroke calls) := by
  induction calls using reverseRecOn with
  | nil => exact authored_new
  | append_singleton calls call ih =>
    have hnext : surfaceRun stroke (calls ++ [call]) = (surfaceRun stroke calls).next call := by
      simp [surfaceRun]
    rw [hnext] at hwin hroom ⊢
    have hearl : InWindow (surfaceRun stroke calls).samples := (pairwise_append.mp hwin).1
    have hfewer : (surfaceRun stroke calls).samples.length ≤ maxGestureEvents := by
      refine le_trans ?_ hroom
      rw [SurfaceRun.next, length_append]
      exact le_add_right _ _
    exact (ih (fun call hcall => hfin call (mem_append_left _ hcall))
      hearl hfewer).next hstroke (hfin call (by simp)) hwin hroom

/-- Whatever finite scalars, frames and releases come, every sample is recorded,
the phases are those of one stroke after the other, the surface and the track
agree on whether it is open, and a move is never at the position of the move in
front of it. -/
theorem controller_scalars_author_a_stroke (div hypot : F32 → F32 → F32) (origin : GestureOrigin)
    (stroke : UInt8) (hstroke : stroke.toNat < 16) (calls : List (UInt64 × SurfaceCall))
    (hfinite : ∀ call ∈ calls, call.2.isFinite)
    (hwindow : InWindow (surfaceRun stroke calls).samples)
    (hroom : (surfaceRun stroke calls).samples.length ≤ maxGestureEvents) :
    let run := surfaceRun stroke calls
    let result := ingestSamples div hypot origin run.samples
    result.1 = true ∧ result.2.events.length = run.samples.length ∧
      StrokeShape run.surface.isOpen (run.samples.map (·.2.phase)) ∧
      result.2.validator.openStrokes.getLsbD stroke.toNat = run.surface.isOpen ∧
      run.samples.IsChain Moved := by
  have h : Authored div hypot origin stroke (surfaceRun stroke calls) :=
    authored_run hstroke calls hfinite hwindow hroom
  have hmask := h.follows.mask
  refine ⟨h.recorded, h.follows.length, h.shape, ?_, h.moved⟩
  rw [hmask]
  cases hopen : (surfaceRun stroke calls).surface.isOpen with
  | false => simp
  | true =>
    rw [if_pos rfl, getLsbD_bit hstroke]
    exact decide_eq_true rfl

/-- A contact, a motion in a frame of its own, and a release. -/
theorem controller_scalars_author_a_stroke_once :
    let calls : List (UInt64 × SurfaceCall) :=
      [(5, .apply (.contact true)), (6, .apply (.x 0.75)), (7, .sampleMotion), (9, .release)]
    let run := surfaceRun 3 calls
    let result := ingestSamples (fun a _ => a) (fun a _ => a) .osc run.samples
    InWindow run.samples ∧ run.samples.length = 3 ∧ result.1 = true ∧
      run.surface.isOpen = false := by
  intro calls run result
  have hwindow : InWindow run.samples := by decide +kernel
  have hlength : run.samples.length = 3 := by decide +kernel
  obtain ⟨hrecorded, -⟩ := controller_scalars_author_a_stroke (fun a _ => a)
    (fun a _ => a) .osc 3 (by decide) calls (by decide +kernel) hwindow
    (hlength ▸ by decide)
  exact ⟨hwindow, hlength, hrecorded, by decide +kernel⟩

end

end CollideOScope.Gesture
