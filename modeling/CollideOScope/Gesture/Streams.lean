import Mathlib.Data.List.Induction
import CollideOScope.Gesture.Track

/-!
# Recorded and decoded gesture streams

Ingest and decoding drive the same validator from different states: ingest
rebases ticks against the first event, stops at the cap and works on a copy of
the validator, while decoding runs over a whole list.  What both accept is
described once, by the shape of the events of each stroke.
-/

namespace CollideOScope.Gesture

open Nat Option Checks GestureTrack GestureTrackDocument List GestureEvent

/-- Sequences of whole strokes: a begin, any number of moves, an end. -/
inductive CompleteStrokes : List GesturePhase → Prop
  | nil : CompleteStrokes []
  | stroke {rest : List GesturePhase} (moves : ℕ) (h : CompleteStrokes rest) :
      CompleteStrokes (.begin :: (replicate moves .move ++ .end :: rest))

/-- Whole strokes, the last of which may still be open. -/
def StrokeShape (isOpen : Bool) (phases : List GesturePhase) : Prop :=
  if isOpen then
    ∃ front moves, CompleteStrokes front ∧ phases = front ++ .begin :: replicate moves .move
  else CompleteStrokes phases

def strokePhases (events : List GestureEvent) (stroke : ℕ) : List GesturePhase :=
  (events.filter fun event => event.stroke.toNat = stroke).map phase

theorem CompleteStrokes.append {front rest : List GesturePhase}
    (hfront : CompleteStrokes front) (hrest : CompleteStrokes rest) :
    CompleteStrokes (front ++ rest) := by
  induction hfront with
  | nil => exact hrest
  | stroke moves _ ih =>
    rw [cons_append, append_assoc, cons_append]
    exact .stroke moves ih

variable {phases : List GesturePhase} {isOpen : Bool}

theorem StrokeShape.snoc {phase : GesturePhase} (h : StrokeShape isOpen phases)
    (hph : isOpen ↔ phase ≠ .begin) :
    StrokeShape (decide (phase ≠ .end)) (phases ++ [phase]) := by
  cases phase with
  | begin =>
    have hclosed : isOpen = false := by simpa using hph
    subst hclosed
    exact ⟨phases, 0, h, rfl⟩
  | move =>
    have hopen : isOpen = true := by simpa using hph
    subst hopen
    obtain ⟨front, moves, hfront, rfl⟩ := h
    refine ⟨front, moves + 1, hfront, ?_⟩
    rw [replicate_succ', append_assoc, cons_append]
  | «end» =>
    have hopen : isOpen = true := by simpa using hph
    subst hopen
    obtain ⟨front, moves, hfront, rfl⟩ := h
    have hlast : CompleteStrokes (.begin :: (replicate moves .move ++ [.end])) := .stroke moves .nil
    have hall := hfront.append hlast
    rw [append_assoc]
    exact hall

theorem StrokeShape.exists_complete (h : StrokeShape isOpen phases) :
    ∃ rest, CompleteStrokes (phases ++ rest) := by
  cases isOpen with
  | false =>
    refine ⟨[], ?_⟩
    rw [append_nil]
    exact h
  | true =>
    obtain ⟨front, moves, hfront, rfl⟩ := h
    refine ⟨[.end], ?_⟩
    rw [append_assoc]
    exact hfront.append (.stroke moves .nil)

section

variable {events : List GestureEvent} {event : GestureEvent} {v v' : GestureStreamValidator}

def Validated (events : List GestureEvent) (v : GestureStreamValidator) : Prop :=
  events.foldlM GestureStreamValidator.accept .default = .ok v

theorem validated_snoc :
    Validated (events ++ [event]) v' ↔ ∃ v, Validated events v ∧ v.accept event = .ok v' := by
  simp [Validated, foldlM_append]

/-- The shape of an accepted stream: ticks that do not decrease,
no event behind the watermark, and open or whole strokes as the mask says. -/
structure WellFormed (events : List GestureEvent) (v : GestureStreamValidator) : Prop where
  ticks : events.Pairwise fun a b => a.referenceTick ≤ b.referenceTick
  watermark : ∀ event ∈ events, ∃ tick ∈ v.lastTick, event.referenceTick ≤ tick
  shape : ∀ i < 16, StrokeShape (v.openStrokes.getLsbD i) (strokePhases events i)
  last : ∀ i < 16, v.openStrokes.getLsbD i ↔
    ∃ phase, (strokePhases events i).getLast? = some phase ∧ phase ≠ .end
  inRange : ∀ event ∈ events, event.stroke.toNat < 16

theorem strokePhases_snoc (i : ℕ) :
    strokePhases (events ++ [event]) i =
      if event.stroke.toNat = i then strokePhases events i ++ [event.phase]
      else strokePhases events i := by
  by_cases h : event.stroke.toNat = i
  · simp [strokePhases, filter_append, h]
  · simp [strokePhases, filter_append, h]

theorem wellFormed_nil : WellFormed [] .default where
  ticks := List.Pairwise.nil
  watermark := by simp
  shape i _ := by
    rw [show (GestureStreamValidator.default.openStrokes.getLsbD i) = false
      from BitVec.getLsbD_zero]
    exact CompleteStrokes.nil
  last i _ := by
    simp [GestureStreamValidator.default, strokePhases]
  inRange := by simp

theorem WellFormed.snoc (h : WellFormed events v)
    (hacc : v.accept event = .ok v') : WellFormed (events ++ [event]) v' := by
  obtain ⟨hs, htick, hlast, hpre, hafter⟩ := GestureStreamValidator.accept_ok hacc
  have hbehind : ∀ e ∈ events, e.referenceTick ≤ event.referenceTick := by
    intro e he
    obtain ⟨tick, hmem, hle⟩ := h.watermark e he
    exact UInt32.le_trans hle (htick tick hmem)
  constructor
  case ticks =>
    rw [pairwise_append]
    refine ⟨h.ticks, pairwise_singleton _ _, ?_⟩
    intro a ha b hb
    rw [mem_singleton.mp hb]
    exact hbehind a ha
  case watermark =>
    intro e he
    refine ⟨event.referenceTick, hlast, ?_⟩
    rcases mem_append.mp he with hmem | hmem
    · exact hbehind e hmem
    · rw [mem_singleton.mp hmem]
      exact UInt32.le_refl _
  case shape =>
    intro i hi
    rw [hafter i hi, strokePhases_snoc]
    by_cases heq : i = event.stroke.toNat
    · subst heq
      simpa using (h.shape _ hi).snoc hpre
    · simpa [heq, Ne.symm heq] using h.shape i hi
  case last =>
    intro i hi
    rw [hafter i hi, strokePhases_snoc]
    by_cases heq : i = event.stroke.toNat
    · simp [heq]
    · simpa [heq, Ne.symm heq] using h.last i hi
  case inRange =>
    intro e he
    rcases mem_append.mp he with hmem | hmem
    · exact h.inRange e hmem
    · rw [mem_singleton.mp hmem]
      exact hs

theorem Validated.wellFormed (h : Validated events v) : WellFormed events v := by
  induction events using reverseRecOn generalizing v with
  | nil =>
    have hv : GestureStreamValidator.default = v := by simpa [Validated] using h
    rw [← hv]
    exact wellFormed_nil
  | append_singleton events event ih =>
    obtain ⟨v₀, hfront, hacc⟩ := validated_snoc.mp h
    exact (ih hfront).snoc hacc

end

structure Recorded (track : GestureTrack) : Prop where
  validated : Validated track.events track.validator
  bounded : track.events.length ≤ maxGestureEvents
  origin : track.originTick = none ↔ track.events = []
  first : ∀ event ∈ track.events.head?, event.referenceTick = 0

section

variable {track : GestureTrack} {absolute : UInt64} {event : GestureEvent}

theorem stamp_ok {origin : UInt64} {stamped : GestureEvent} {probe : GestureStreamValidator}
    (h : track.stamp absolute event = .ok (origin, stamped, probe)) :
    origin = track.originTick.getD absolute ∧
      stamped = event.at' (absolute - origin).toUInt32 ∧
      track.validator.accept stamped = .ok probe := by
  simp only [stamp, bind_ok, refuse_ok, exists_unit, pure_ok, Prod.mk.injEq] at h
  obtain ⟨-, -, _, hacc, rfl, rfl, rfl⟩ := h
  exact ⟨rfl, rfl, hacc⟩

theorem recordAccepted_cases (track : GestureTrack) (absolute : UInt64) (event : GestureEvent) :
    (∃ error, track.recordAccepted absolute event = (.error error, track)) ∨
    (track.recordAccepted absolute event = (.ok false, { track with truncated := true })) ∨
    ∃ origin stamped probe,
      track.stamp absolute event = .ok (origin, stamped, probe) ∧
      track.events.length < maxGestureEvents ∧
      track.recordAccepted absolute event =
        (.ok true,
          { track with
            originTick := some origin
            events := track.events ++ [stamped]
            validator := probe }) := by
  cases h : track.stamp absolute event with
  | error error =>
    left
    exact ⟨error, by simp [recordAccepted, h]⟩
  | ok result =>
    obtain ⟨origin, stamped, probe⟩ := result
    right
    by_cases hfull : maxGestureEvents ≤ track.events.length
    · left
      simp [recordAccepted, h, hfull]
    · right
      refine ⟨origin, stamped, probe, rfl, Nat.lt_of_not_le hfull, ?_⟩
      simp [recordAccepted, h, hfull]

theorem recorded_default : Recorded .default where
  validated := rfl
  bounded := Nat.zero_le _
  origin := by simp [GestureTrack.default]
  first := by simp [GestureTrack.default]

theorem Recorded.recordAccepted (h : Recorded track) (absolute : UInt64) (event : GestureEvent) :
    Recorded (track.recordAccepted absolute event).2 := by
  rcases recordAccepted_cases track absolute event with
    ⟨error, heq⟩ | heq | ⟨origin, stamped, probe, hstamp, hlt, heq⟩
  · rw [heq]
    exact h
  · rw [heq]
    exact ⟨h.validated, h.bounded, h.origin, h.first⟩
  · obtain ⟨horig, hstamped, hacc⟩ := stamp_ok hstamp
    rw [heq]
    refine ⟨validated_snoc.mpr ⟨_, h.validated, hacc⟩, ?_, ?_, ?_⟩
    · simpa using succ_le_of_lt hlt
    · simp
    · intro e he
      rcases eq_nil_or_concat track.events with hnil | ⟨_, _, hcons⟩
      · have horigin' : track.originTick = none := h.origin.mpr hnil
        simp only [hnil, nil_append, head?_cons, mem_some_iff] at he
        rw [← he, hstamped, horig, horigin']
        simp [at']
      · apply h.first e
        have hne : track.events ≠ [] := by simp [hcons]
        rwa [head?_append_of_ne_nil _ hne] at he

theorem Recorded.record (h : Recorded track)
    (calls : List (UInt64 × GestureEvent)) : Recorded (track.record calls) := by
  induction calls generalizing track with
  | nil => exact h
  | cons call calls ih => exact ih (h.recordAccepted call.1 call.2)

end

section

variable (digestHex : Bytes → String) {track : GestureTrack}

theorem declaredEventCount_toNat (h : track.events.length ≤ maxGestureEvents) :
    track.declaredEventCount.toNat = track.events.length := by
  simp only [maxGestureEvents] at h
  rw [declaredEventCount, if_pos (by omega)]
  exact UInt32.toNat_ofNat_of_lt' (by simp [UInt32.size]; omega)

variable {document : GestureTrackDocument}

theorem decode_ok :
    document.decode digestHex = .ok track ↔
      document.version = gestureAlgorithmVersion ∧
      document.events.length ≤ maxGestureEvents ∧
      document.eventCount.toNat = document.events.length ∧
      (document.events = [] → document.originTick = 0) ∧
      ∃ validator, Validated document.events validator ∧
        digestHex (document.rebuild validator).canonicalBytes = document.checksum ∧
        document.rebuild validator = track := by
  simp only [decode, bind_ok, refuse_ok, exists_unit, pure_ok, not_not, not_lt, not_and, Validated]

theorem Recorded.rebuild_capture (h : Recorded track) :
    (capture digestHex track).rebuild track.validator = track := by
  have horig : (if track.events = [] then none
      else some (track.originTick.getD 0)) = track.originTick := by
    by_cases hemp : track.events = []
    · rw [if_pos hemp, h.origin.mpr hemp]
    · rw [if_neg hemp]
      obtain ⟨origin, horig⟩ := ne_none_iff_exists'.mp (mt h.origin.mp hemp)
      rw [horig, getD_some]
  calc
    (capture digestHex track).rebuild track.validator =
        ⟨if track.events = [] then none else some (track.originTick.getD 0),
          track.events, track.truncated, track.validator⟩ := rfl
    _ = track := by rw [horig]

theorem Recorded.decode_capture (h : Recorded track) :
    (capture digestHex track).decode digestHex = .ok track := by
  rw [decode_ok]
  refine ⟨rfl, h.bounded, declaredEventCount_toNat h.bounded, ?_,
    track.validator, h.validated, ?_, h.rebuild_capture digestHex⟩
  · intro hemp
    have hnone : track.originTick = none := h.origin.mpr hemp
    exact congrArg (fun origin => Option.getD origin 0) hnone
  · rw [h.rebuild_capture digestHex]
    rfl

theorem capture_of_decode (h : document.decode digestHex = .ok track) :
    document = capture digestHex track := by
  obtain ⟨hversion, hbd, hcnt, horig, validator, -, hsum, rfl⟩ := (decode_ok digestHex).mp h
  have htick : ((document.rebuild validator).originTick).getD 0 = document.originTick := by
    by_cases hemp : document.events = []
    · simp [rebuild, hemp, horig hemp]
    · simp [rebuild, hemp]
  have hdecl : (document.rebuild validator).declaredEventCount = document.eventCount := by
    apply UInt32.toNat_inj.mp
    rw [declaredEventCount_toNat hbd, hcnt]
    rfl
  calc
    document = ⟨document.version, document.originTick, document.eventCount,
        document.truncated, document.checksum, document.events⟩ := rfl
    _ = capture digestHex (document.rebuild validator) := by
      rw [capture, htick, hdecl, hsum, hversion]
      rfl

end

section

theorem GesturePhase.code_injective : Function.Injective GesturePhase.code := by
  intro a b h
  cases a <;> cases b <;> first | rfl | exact absurd h (by decide)

theorem GestureMode.code_injective : Function.Injective GestureMode.code := by
  intro a b h
  cases a <;> cases b <;> first | rfl | exact absurd h (by decide)

theorem toUInt16_injective : Function.Injective Int16.toUInt16 := by
  rintro ⟨a⟩ ⟨b⟩ h
  exact congrArg Int16.ofUInt16 h

theorem toNat_lt_field16 (w : UInt16) : w.toNat < 256 ^ 2 := w.toNat_lt

theorem toNat_lt_field32 (w : UInt32) : w.toNat < 256 ^ 4 := w.toNat_lt

theorem toNat_lt_field64 (w : UInt64) : w.toNat < 256 ^ 8 := w.toNat_lt

theorem prefixCode_event : PrefixCode (fun _ => True) encode := by
  intro a b _ _ r s heq
  simp only [encode, append_assoc] at heq
  obtain ⟨htick, heq⟩ := prefixCode_leBytes 4 (toNat_lt_field32 _) (toNat_lt_field32 _) heq
  simp only [cons_append, nil_append, cons.injEq, true_and] at heq
  obtain ⟨hstroke, hph, hmode, heq⟩ := heq
  obtain ⟨hx, heq⟩ := prefixCode_leBytes 2 (toNat_lt_field16 _) (toNat_lt_field16 _) heq
  obtain ⟨hy, heq⟩ := prefixCode_leBytes 2 (toNat_lt_field16 _) (toNat_lt_field16 _) heq
  obtain ⟨hpressure, heq⟩ := prefixCode_leBytes 2 (toNat_lt_field16 _) (toNat_lt_field16 _) heq
  obtain ⟨hdx, heq⟩ := prefixCode_leBytes 2 (toNat_lt_field16 _) (toNat_lt_field16 _) heq
  obtain ⟨hdy, heq⟩ := prefixCode_leBytes 2 (toNat_lt_field16 _) (toNat_lt_field16 _) heq
  refine ⟨?_, heq⟩
  obtain ⟨tick, stroke, phase, mode, x, y, pressure, dx, dy⟩ := a
  obtain ⟨tick', stroke', phase', mode', x', y', pressure', dx', dy'⟩ := b
  simp only [UInt32.toNat_inj, UInt16.toNat_inj] at htick hx hy hpressure hdx hdy
  have hphase' := GesturePhase.code_injective hph
  have hmode' := GestureMode.code_injective hmode
  have hdx' : dx = dx' := toUInt16_injective hdx
  have hdy' : dy = dy' := toUInt16_injective hdy
  subst htick hx hy hpressure hdx' hdy' hphase' hmode' hstroke
  rfl

variable {a b : GestureTrack}

theorem truncated_of_flags (h : a.flags = b.flags) : a.truncated = b.truncated := by
  revert h
  simp only [flags]
  cases a.truncated <;> cases b.truncated <;> cases a.isComplete <;>
    cases b.isComplete <;> decide

theorem Recorded.canonicalBytes_inj (ha : Recorded a) (hb : Recorded b)
    (h : a.canonicalBytes = b.canonicalBytes) : a = b := by
  simp only [canonicalBytes, append_cancel_left_eq] at h
  obtain ⟨hflags, h⟩ := prefixCode_leBytes 2 (toNat_lt_field16 _) (toNat_lt_field16 _) h
  obtain ⟨horig, h⟩ := prefixCode_leBytes 8 (toNat_lt_field64 _) (toNat_lt_field64 _) h
  obtain ⟨hcnt, h⟩ := prefixCode_leBytes 4 (toNat_lt_field32 _) (toNat_lt_field32 _) h
  rw [declaredEventCount_toNat ha.bounded, declaredEventCount_toNat hb.bounded] at hcnt
  have hevs : a.events = b.events := by
    have hcodes := prefixCode_event.flatMap (r := []) (s := []) hcnt
      (fun _ _ => trivial) (fun _ _ => trivial) (by simpa using h)
    exact hcodes.1
  have hvalidator : a.validator = b.validator := by
    have hfold := ha.validated
    rw [hevs] at hfold
    exact Except.ok.inj (hfold.symm.trans hb.validated)
  have htrunc := truncated_of_flags (UInt16.toNat_inj.mp hflags)
  have htick : a.originTick = b.originTick := by
    rw [UInt64.toNat_inj] at horig
    have hnone : a.originTick = none ↔ b.originTick = none := by rw [ha.origin, hb.origin, hevs]
    cases ho : a.originTick with
    | none => exact (hnone.mp ho).symm
    | some x =>
      obtain ⟨y, hy⟩ := ne_none_iff_exists'.mp (mt hnone.mpr (by simp [ho]))
      rw [ho, hy] at horig
      rw [hy]
      exact congrArg some horig
  obtain ⟨_, _, _, _⟩ := a
  obtain ⟨_, _, _, _⟩ := b
  simp_all

end

section

def replayCalls (origin : UInt64) (events : List GestureEvent) : List (UInt64 × GestureEvent) :=
  events.map fun event => (origin + event.referenceTick.toUInt64, event)

variable {origin : UInt64}

theorem stamp_at (track : GestureTrack) {event : GestureEvent} {probe : GestureStreamValidator}
    (horig : track.originTick.getD (origin + event.referenceTick.toUInt64) = origin)
    (hfits : origin.toNat + event.referenceTick.toNat < 2 ^ 64)
    (hacc : track.validator.accept event = .ok probe) :
    track.stamp (origin + event.referenceTick.toUInt64) event = .ok (origin, event, probe) := by
  have htick : event.referenceTick.toUInt64.toNat = event.referenceTick.toNat :=
    UInt32.toNat_toUInt64 _
  have hsum : (origin + event.referenceTick.toUInt64).toNat =
      origin.toNat + event.referenceTick.toNat := by
    rw [UInt64.toNat_add, htick, mod_eq_of_lt hfits]
  have hord : ¬origin + event.referenceTick.toUInt64 < origin := by
    rw [UInt64.lt_iff_toNat_lt, hsum]
    omega
  have hrelative : origin + event.referenceTick.toUInt64 - origin =
      event.referenceTick.toUInt64 := by
    rw [UInt64.add_comm, UInt64.add_sub_cancel]
  have hwin : ¬2 ^ 32 ≤ event.referenceTick.toUInt64.toNat := by
    rw [htick, not_le]
    exact event.referenceTick.toNat_lt
  have hstamp : event.at' event.referenceTick.toUInt64.toUInt32 = event := by
    rw [UInt32.toUInt32_toUInt64]
    rfl
  simp only [stamp, horig, hrelative, hstamp, bind_ok, refuse_ok, exists_unit, pure_ok]
  exact ⟨hord, hwin, probe, hacc, rfl⟩

theorem record_replayCalls {events : List GestureEvent} {v : GestureStreamValidator}
    (hvalid : Validated events v) (hbd : events.length ≤ maxGestureEvents)
    (hfst : ∀ event ∈ events.head?, event.referenceTick = 0)
    (hfits : ∀ event ∈ events, origin.toNat + event.referenceTick.toNat < 2 ^ 64) :
    default.record (replayCalls origin events) =
      ⟨if events = [] then none else some origin, events, false, v⟩ := by
  induction events using reverseRecOn generalizing v with
  | nil =>
    have hv : GestureStreamValidator.default = v := by simpa [Validated] using hvalid
    rw [← hv]
    rfl
  | append_singleton events event ih =>
    obtain ⟨v₀, hfront, hacc⟩ := validated_snoc.mp hvalid
    have hfirst' : ∀ e ∈ events.head?, e.referenceTick = 0 := by
      intro e he
      apply hfst e
      rcases eq_nil_or_concat events with rfl | ⟨_, _, rfl⟩
      · cases he
      · rwa [head?_append_of_ne_nil _ (by simp)]
    have hlen : events.length < maxGestureEvents := lt_of_succ_le (by simpa using hbd)
    have hprior := ih hfront hlen.le hfirst' fun e he => hfits e (mem_append_left _ he)
    have horig : (if events = [] then none else some origin).getD
        (origin + event.referenceTick.toUInt64) = origin := by
      by_cases hemp : events = []
      · have hzero := hfst event (by simp [hemp])
        simp [hemp, hzero]
      · simp [hemp]
    have hstamp := stamp_at ⟨if events = [] then none else some origin, events, false, v₀⟩ horig
      (hfits event (by simp)) hacc
    have hstep : default.record (replayCalls origin (events ++ [event])) =
        ((default.record (replayCalls origin events)).recordAccepted
          (origin + event.referenceTick.toUInt64) event).2 := by
      simp [record, replayCalls, foldl_append]
    rw [hstep, hprior, recordAccepted, hstamp]
    simp [not_le.mpr hlen]

end

/-- Ingest and decoding accept the same streams.  A refused call changes
nothing and a full track is only marked; recorded events have ticks that do not
decrease from zero and strokes that are whole or open as the mask says; a
recorded track is decoded from its document and is determined by its canonical
bytes; and a decoded document whose first tick is zero is that of its replay. -/
theorem ingest_and_decode_agree (digestHex : Bytes → String)
    (calls : List (UInt64 × GestureEvent)) :
    let track := default.record calls
    (∀ absolute event,
      (∀ error, (track.recordAccepted absolute event).1 = .error error →
        (track.recordAccepted absolute event).2 = track) ∧
      ((track.recordAccepted absolute event).1 = .ok false →
        (track.recordAccepted absolute event).2 = { track with truncated := true })) ∧
    (track.events.Pairwise fun a b => a.referenceTick ≤ b.referenceTick) ∧
    (∀ event ∈ track.events.head?, event.referenceTick = 0) ∧
    (∀ event ∈ track.events, event.stroke.toNat < 16) ∧
    (∀ stroke < 16,
      (∃ rest, CompleteStrokes (strokePhases track.events stroke ++ rest)) ∧
      (track.validator.openStrokes.getLsbD stroke ↔
        ∃ phase, (strokePhases track.events stroke).getLast? = some phase ∧ phase ≠ .end)) ∧
    (capture digestHex track).decode digestHex = .ok track ∧
    (∀ calls', (default.record calls').canonicalBytes =
      track.canonicalBytes → default.record calls' = track) ∧
    ∀ document decoded,
      decode digestHex document = .ok decoded →
      (∀ event ∈ document.events.head?, event.referenceTick = 0) →
      (∀ event ∈ document.events, document.originTick.toNat + event.referenceTick.toNat < 2 ^ 64) →
      let replayed : GestureTrack :=
        { default.record
            (replayCalls document.originTick document.events) with
          truncated := document.truncated }
      decoded = replayed ∧ document = capture digestHex replayed := by
  intro track
  have hrecorded : Recorded track := recorded_default.record calls
  have hshape := hrecorded.validated.wellFormed
  refine ⟨?_, hshape.ticks, hrecorded.first, hshape.inRange, ?_,
    hrecorded.decode_capture digestHex, ?_, ?_⟩
  · intro absolute event
    rcases recordAccepted_cases track absolute event with
      ⟨error, heq⟩ | heq | ⟨origin, stamped, probe, -, -, heq⟩
    · simp [heq]
    · simp [heq]
    · simp [heq]
  · intro stroke hstroke
    exact ⟨(hshape.shape stroke hstroke).exists_complete, hshape.last stroke hstroke⟩
  · intro calls' hbytes
    exact (recorded_default.record calls').canonicalBytes_inj hrecorded hbytes
  · intro document decoded hdecode hfirst hfits replayed
    have hcapture := capture_of_decode digestHex hdecode
    obtain ⟨-, hbound, -, -, validator, hvalid, -, hrebuild⟩ := (decode_ok digestHex).mp hdecode
    have hreplayed : decoded = replayed := by
      rw [← hrebuild]
      simp only [replayed, record_replayCalls hvalid hbound hfirst hfits]
      rfl
    rw [← hreplayed]
    exact ⟨rfl, hcapture⟩

end CollideOScope.Gesture
