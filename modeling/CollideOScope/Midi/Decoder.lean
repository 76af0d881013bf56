import CollideOScope.Control.Address
import CollideOScope.Support.Binary32
import CollideOScope.Support.Checks
import Mathlib.Data.List.AList

/-!
# Resolved controller profiles

A resolved profile binds MIDI sources to control addresses.  Validation is what
every live profile has passed: bounded, with distinct nonzero binding
identities, and with button modes only where they make sense.

Arithmetic on authored values is a parameter of the model; none of the results
on buttons or feedback depends on it.
-/

namespace CollideOScope.Midi

open List

open CollideOScope.Checks
open CollideOScope.Control

/-- The arithmetic of a profile: component operations, rounding to the nearest
whole value and the saturating conversion to a byte. -/
class MidiFloat (F : Type*) extends FloatOps F where
  round : F → F
  toU8 : F → UInt8

/-- Exact rationals: half-way cases round away from zero. -/
instance : MidiFloat ℚ where
  round a := if a < 0 then -(Rat.floor (-a + 1 / 2)) else Rat.floor (a + 1 / 2)
  toU8 a := UInt8.ofNat (Nat.min (Rat.floor a).toNat 255)

def controllerProfileMaxNameBytes : ℕ := 96

def controllerDeviceNameMaxBytes : ℕ := 256

def controllerProfileMaxBindings : ℕ := 256

def controllerProfileMaxFeedbackBindings : ℕ := 256

inductive ControllerProfileError
  | profileName | deviceName
  | bindingCount (count : ℕ)
  | feedbackCount (count : ℕ)
  | bindingId (id : UInt16)
  | channel (channel : UInt8)
  | midiData (value : UInt8)
  | pressThreshold (id : UInt16)
  | relativeStep (id : UInt16)
  | noteNeedsButton (id : UInt16)
  | buttonEncoding (id : UInt16)
  | sceneActionNeedsMomentary (id : UInt16)
  | nonFinite
  deriving DecidableEq

inductive MidiDeviceSelector
  | firstAvailable
  | exact (name : String)

def MidiDeviceSelector.validate : MidiDeviceSelector → Except ControllerProfileError Unit
  | .exact name => do
      refuse (name.isEmpty ∨ name.utf8ByteSize > controllerDeviceNameMaxBytes) .deviceName
      refuse (name.toList.any isControl) .deviceName
  | .firstAvailable => pure ()

inductive MidiChannelFilter
  | omni
  | exact (channel : UInt8)

def MidiChannelFilter.matches : MidiChannelFilter → UInt8 → Bool
  | .omni, _ => true
  | .exact channel, zeroBasedChannel => channel == zeroBasedChannel + 1

def MidiChannelFilter.validate : MidiChannelFilter → Except ControllerProfileError Unit
  | .exact channel => refuse (¬(1 ≤ channel ∧ channel ≤ 16)) (.channel channel)
  | .omni => pure ()

inductive MidiInputSource
  | controlChange (controller : UInt8)
  | note (note : UInt8)

def MidiInputSource.validate (source : MidiInputSource) : Except ControllerProfileError Unit :=
  let value :=
    match source with
    | .controlChange controller => controller
    | .note number => number
  refuse (¬value ≤ 127) (.midiData value)

inductive MidiValueEncoding
  | absolute | relativeTwosComplement | relativeBinaryOffset
  | relativeSignMagnitude
  deriving DecidableEq

inductive MidiButtonMode
  | momentary | toggle | gate
  deriving DecidableEq

inductive MidiOutputMessage
  | controlChange (channel controller : UInt8)
  | note (channel note : UInt8)

structure WireBytes where
  (status data value : UInt8)
  deriving DecidableEq

section

variable {F : Type} [MidiFloat F]

open FloatOps MidiFloat

def MidiOutputMessage.bytes (message : MidiOutputMessage) (normalized : F) :
    Except ControllerProfileError WireBytes := do
  refuse (isFinite normalized = false) .nonFinite
  let value := toU8 (round (clamp normalized (lit 0) (lit 1) * lit 127))
  let (channel, data, family) :=
    match message with
    | .controlChange channel controller => (channel, controller, (0xb0 : UInt8))
    | .note channel number => (channel, number, 0x90)
  refuse (¬(1 ≤ channel ∧ channel ≤ 16)) (.channel channel)
  refuse (data > 127) (.midiData data)
  pure ⟨family ||| (channel - 1), data, value⟩

structure ResolvedControllerBinding (F : Type) where
  id : UInt16
  source : MidiInputSource
  channel : MidiChannelFilter
  encoding : MidiValueEncoding
  buttonMode : Option MidiButtonMode
  pressThreshold : UInt8
  relativeStep : F
  target : RuntimeControlAddress
  feedback : Option MidiOutputMessage

structure ResolvedControllerProfile (F : Type) where
  name : String
  (input output : MidiDeviceSelector)
  bindings : List (ResolvedControllerBinding F)

/-- The wire messages a value of an address is reported by, one for each binding
that targets the address and has a feedback message. -/
def ResolvedControllerProfile.feedbackBytes (profile : ResolvedControllerProfile F)
    (address : RuntimeControlAddress) (value : F) : List (WireBytes × UInt16) :=
  profile.bindings.filterMap fun binding =>
    if binding.target = address then
      binding.feedback.bind fun message =>
        (message.bytes value).toOption.map fun bytes => (bytes, binding.id)
    else none

def ResolvedControllerBinding.validate (binding : ResolvedControllerBinding F) :
    Except ControllerProfileError Unit := do
  binding.source.validate
  binding.channel.validate
  refuse (¬(1 ≤ binding.pressThreshold ∧ binding.pressThreshold ≤ 127)) (.pressThreshold binding.id)
  refuse
    (isFinite binding.relativeStep = false ∨
      lt binding.relativeStep (lit 0) ∨ lt (lit 1) binding.relativeStep ∨
      (binding.encoding ≠ .absolute ∧ !lt (lit 0) binding.relativeStep))
    (.relativeStep binding.id)
  match binding.source with
  | .note _ => refuse (binding.buttonMode = none) (.noteNeedsButton binding.id)
  | .controlChange _ => pure ()
  refuse (binding.buttonMode ≠ none ∧ binding.encoding ≠ .absolute) (.buttonEncoding binding.id)
  refuse (binding.target.isSceneAction ∧ binding.buttonMode ≠ some .momentary)
    (.sceneActionNeedsMomentary binding.id)

/-- The loop over the bindings, with the identities seen so far and the number
of bindings that have feedback. -/
def validateBindings (ids : List UInt16) (feedback : ℕ) :
    List (ResolvedControllerBinding F) → Except ControllerProfileError ℕ
  | [] => pure feedback
  | binding :: rest => do
      refuse (binding.id = 0 ∨ binding.id ∈ ids) (.bindingId binding.id)
      binding.validate
      match binding.feedback with
      | some output => do
          let _ ← output.bytes (lit 0 : F)
          validateBindings (binding.id :: ids) (feedback + 1) rest
      | none => validateBindings (binding.id :: ids) feedback rest

def ResolvedControllerProfile.validate (profile : ResolvedControllerProfile F) :
    Except ControllerProfileError Unit := do
  refuse
    (profile.name.isEmpty ∨
      profile.name.utf8ByteSize > controllerProfileMaxNameBytes ∨
      profile.name.toList.any isControl)
    .profileName
  profile.input.validate
  profile.output.validate
  refuse (profile.bindings.length > controllerProfileMaxBindings)
    (.bindingCount profile.bindings.length)
  let feedback ← validateBindings [] 0 profile.bindings
  refuse (feedback > controllerProfileMaxFeedbackBindings) (.feedbackCount feedback)

theorem validateBindings_distinct {ids : List UInt16} {feedback count : ℕ}
    {bindings : List (ResolvedControllerBinding F)}
    (h : validateBindings ids feedback bindings = .ok count) :
    (bindings.map (·.id)).Nodup ∧ ∀ id ∈ bindings.map (·.id), id ∉ ids := by
  induction bindings generalizing ids feedback with
  | nil => exact ⟨nodup_nil, fun id hid => absurd hid not_mem_nil⟩
  | cons binding rest ih =>
    simp only [validateBindings, bind_ok, refuse_ok, exists_unit] at h
    obtain ⟨hid, -, hrest⟩ := h
    have htail : (rest.map (·.id)).Nodup ∧ ∀ id ∈ rest.map (·.id), id ∉ binding.id :: ids := by
      cases hfeedback : binding.feedback with
      | none =>
        rw [hfeedback] at hrest
        exact ih hrest
      | some output =>
        rw [hfeedback] at hrest
        simp only [bind_ok] at hrest
        obtain ⟨-, -, hrest⟩ := hrest
        exact ih hrest
    obtain ⟨hnd, hfresh⟩ := htail
    rw [map_cons, nodup_cons]
    refine ⟨⟨fun hmem => ?_, hnd⟩, fun id hmem => ?_⟩
    · exact hfresh _ hmem mem_cons_self
    · rcases mem_cons.mp hmem with rfl | hmem
      · exact fun hseen => hid (.inr hseen)
      · exact fun hseen => hfresh id hmem (mem_cons_of_mem _ hseen)

variable {profile : ResolvedControllerProfile F}

theorem ResolvedControllerProfile.validate_distinct
    (h : profile.validate = .ok ()) : (profile.bindings.map (·.id)).Nodup := by
  simp only [validate, bind_ok, exists_unit] at h
  obtain ⟨-, -, -, -, _, hbindings, -⟩ := h
  exact (validateBindings_distinct hbindings).1

theorem ResolvedControllerProfile.validate_bounded (h : profile.validate = .ok ()) :
    profile.bindings.length ≤ controllerProfileMaxBindings := by
  simp only [validate, bind_ok, refuse_ok, exists_unit, not_lt] at h
  obtain ⟨-, -, -, hcnt, -⟩ := h
  exact hcnt

end

/-!
## The controller decoder

The decoder turns one complete MIDI message into the events of every binding it
matches.
-/

inductive MidiTransportEvent
  | start | continue | stop | clock

inductive ControllerEventKind (F : Type)
  | control (bindingId : UInt16) (address : RuntimeControlAddress)
      (value : AutomationValue F)
  | transport (event : MidiTransportEvent)

structure ControllerEvent (F : Type) where
  timestampUs : UInt64
  origin : AutomationOrigin
  kind : ControllerEventKind F

structure ControllerDecodeReport where
  (matchedBindings emittedEvents droppedEvents : ℕ)
  stateChanged : Bool

/-- `ControllerDecodeReport::default`. -/
def ControllerDecodeReport.empty : ControllerDecodeReport := ⟨0, 0, 0, false⟩

/-- The three-byte note and control-change messages and the four one-byte
transport messages the decoder consumes. -/
def isWellFormedControllerMidi (message : List UInt8) : Bool :=
  match message.head? with
  | none => false
  | some status =>
    if status = 0xf8 ∨ status = 0xfa ∨ status = 0xfb ∨ status = 0xfc then message.length == 1
    else if status &&& 0xf0 = 0x80 ∨ status &&& 0xf0 = 0x90 ∨
        status &&& 0xf0 = 0xb0 then
      message.length == 3 && message.getD 1 0 < 0x80 && message.getD 2 0 < 0x80
    else false

def transportEvent (status : UInt8) : Option MidiTransportEvent :=
  if status = 0xfa then some .start
  else if status = 0xfb then some .continue
  else if status = 0xfc then some .stop
  else if status = 0xf8 then some .clock
  else none

structure ChannelMessage where
  (family channel number raw : UInt8)

def ChannelMessage.ofBytes (message : List UInt8) : ChannelMessage where
  family := message.getD 0 0 &&& 0xf0
  channel := message.getD 0 0 &&& 0x0f
  number := message.getD 1 0
  raw := message.getD 2 0

structure ButtonState where
  (pressed toggled : Bool)
  deriving DecidableEq

/-- `ButtonState::default`. -/
def ButtonState.released : ButtonState := ⟨false, false⟩

abbrev Buttons := AList fun _ : UInt16 => ButtonState

/-- `buttons.get(&id).copied().unwrap_or_default()`. -/
def Buttons.state (buttons : Buttons) (id : UInt16) : ButtonState :=
  (buttons.lookup id).getD .released

section

variable {F : Type} [MidiFloat F]

open FloatOps

/-- The value a button emits when it is seen pressed or released, and the state
it commits with it. -/
def MidiButtonMode.candidate (mode : MidiButtonMode) (prior : ButtonState)
    (pressed : Bool) : Option (AutomationValue F) × ButtonState :=
  let rising := pressed && !prior.pressed
  let changed := pressed != prior.pressed
  let candidate : ButtonState := ⟨pressed, prior.toggled⟩
  match mode with
  | .momentary => (if rising then some .trigger else none, candidate)
  | .toggle =>
    if rising then (some (.gate !candidate.toggled), ⟨pressed, !candidate.toggled⟩)
    else (none, candidate)
  | .gate => (if changed then some (.gate pressed) else none, candidate)

def decodeContinuous (encoding : MidiValueEncoding) (raw : UInt8) (step : F) :
    Option (AutomationValue F) :=
  match encoding with
  | .absolute => some (.absolute (lit raw.toNat / lit 127))
  | encoding =>
    let delta : ℤ :=
      match encoding with
      | .relativeTwosComplement =>
        if 1 ≤ raw ∧ raw ≤ 63 then raw.toNat
        else if 65 ≤ raw ∧ raw ≤ 127 then raw.toNat - 128
        else 0
      | .relativeBinaryOffset => raw.toNat - 64
      | .relativeSignMagnitude =>
        let magnitude : ℤ := (raw &&& 0x3f).toNat
        if raw &&& 0x40 = 0 then magnitude else -magnitude
      | .absolute => 0
    if delta ≠ 0 then some (.delta (clamp (lit delta * step) (lit (-1)) (lit 1)))
    else none

namespace ResolvedControllerBinding

omit [MidiFloat F] in
def matchesMessage (binding : ResolvedControllerBinding F) (message : ChannelMessage) : Bool :=
  binding.channel.matches message.channel &&
    match binding.source with
    | .controlChange controller => message.family == 0xb0 && controller == message.number
    | .note note => (message.family == 0x80 || message.family == 0x90) && note == message.number

def pressed (binding : ResolvedControllerBinding F) (message : ChannelMessage) : Bool :=
  match binding.source with
  | .note _ => message.family == 0x90 && 0 < message.raw
  | .controlChange _ => binding.pressThreshold ≤ message.raw

/-- The value of a matching message and, for a button, the state before and
after it. -/
def reading (binding : ResolvedControllerBinding F) (buttons : Buttons) (message : ChannelMessage) :
    Option (AutomationValue F) × Option (ButtonState × ButtonState) :=
  match binding.buttonMode with
  | some mode =>
    let prior := buttons.state binding.id
    let (value, candidate) := mode.candidate prior (binding.pressed message)
    (value, some (prior, candidate))
  | none => (decodeContinuous binding.encoding message.raw binding.relativeStep, none)

end ResolvedControllerBinding

structure ControllerDecoder (F : Type) where
  profile : ResolvedControllerProfile F
  buttons : Buttons

namespace ControllerDecoder

def new (profile : ResolvedControllerProfile F) : ControllerDecoder F := ⟨profile, ∅⟩

def replaceProfile (_ : ControllerDecoder F)
    (profile : ResolvedControllerProfile F) : ControllerDecoder F :=
  ⟨profile, ∅⟩

end ControllerDecoder

structure Pass (F : Type) where
  buttons : Buttons
  output : List (ControllerEvent F)
  report : ControllerDecodeReport

namespace Pass

def matched (pass : Pass F) : Pass F :=
  { pass with
    report :=
      { pass.report with matchedBindings := saturatingAddU64 pass.report.matchedBindings 1 } }

def emit (pass : Pass F) (event : ControllerEvent F) : Pass F :=
  { pass with
    output := pass.output ++ [event]
    report := { pass.report with emittedEvents := saturatingAddU64 pass.report.emittedEvents 1 } }

def drop (pass : Pass F) : Pass F :=
  { pass with
    report := { pass.report with droppedEvents := saturatingAddU64 pass.report.droppedEvents 1 } }

def commit (pass : Pass F) (id : UInt16) : Option (ButtonState × ButtonState) → Pass F
  | some (prior, candidate) =>
    if candidate ≠ prior then
      { pass with
        buttons := pass.buttons.insert id candidate
        report := { pass.report with stateChanged := true } }
    else pass
  | none => pass

/-- The loop body.  Admission of the event and the hidden edge are one
transaction: a dropped event leaves the prior state. -/
def visit (timestampUs : UInt64) (message : ChannelMessage) (outputLimit : ℕ)
    (pass : Pass F) (binding : ResolvedControllerBinding F) : Pass F :=
  if binding.matchesMessage message then
    let pass := pass.matched
    let (value, buttonCandidate) := binding.reading pass.buttons message
    match value with
    | some value =>
      if pass.output.length < outputLimit then
        (pass.emit
          { timestampUs
            origin := .midi
            kind := .control binding.id binding.target value }).commit
          binding.id buttonCandidate
      else pass.drop
    | none => pass.commit binding.id buttonCandidate
  else pass

end Pass

namespace ControllerDecoder

def decodeBounded (decoder : ControllerDecoder F) (timestampUs : UInt64) (message : List UInt8)
    (output : List (ControllerEvent F)) (outputLimit : ℕ) :
    ControllerDecoder F × List (ControllerEvent F) × ControllerDecodeReport :=
  if !isWellFormedControllerMidi message then (decoder, output, .empty)
  else
    match transportEvent (message.getD 0 0) with
    | some transport =>
      if output.length < outputLimit then
        (decoder, output ++ [⟨timestampUs, .midi, .transport transport⟩], ⟨1, 1, 0, false⟩)
      else (decoder, output, ⟨1, 0, 1, false⟩)
    | none =>
      let pass :=
        decoder.profile.bindings.foldl (Pass.visit timestampUs (.ofBytes message) outputLimit)
          ⟨decoder.buttons, output, .empty⟩
      ({ decoder with buttons := pass.buttons }, pass.output, pass.report)

end ControllerDecoder

end

end CollideOScope.Midi
