import CollideOScope.Actions.Envelope
import CollideOScope.Midi.Decoder
import CollideOScope.Osc.Packet

/-!
# The ingress queues of OSC and MIDI

Each protocol owns, behind one lock, a queue of admitted actions and a queue of
identities that a lifecycle barrier displaced.  The two share one ceiling.  The
producers are callbacks on other threads: they only try the lock, they hold it
while they check the ceiling and mint an identity from the process-wide
sequencer, and they drop the event when the lock is taken.  The host drains the
admitted actions, displaces them and collects the displaced identities.
-/

namespace CollideOScope.Actions

open Midi Osc

def oscEventQueueCapacity : ℕ := 1024

def midiRawQueueCapacity : ℕ := 1024

/-- `OscActionQueues` and `MidiActionQueues`, which differ in the payload. -/
structure ActionQueues (T : Type) where
  admitted : List (ActionEnvelope T)
  displaced : List ActionIdentity

namespace ActionQueues

variable {T : Type}

def new : ActionQueues T := ⟨[], []⟩

def unresolvedLen (queues : ActionQueues T) : ℕ := queues.admitted.length + queues.displaced.length

/-- The admitted actions are popped from the front, and their identities pushed
to the back of the displaced ones. -/
def displaceAdmitted (queues : ActionQueues T) : ActionQueues T where
  admitted := []
  displaced := queues.admitted.foldl
    (fun displaced action => displaced ++ [action.identity]) queues.displaced

/-- The number of slots of the output that are written, the output and the
queues. -/
def drainDisplaced (queues : ActionQueues T) (output : List (Option ActionIdentity)) :
    ℕ × List (Option ActionIdentity) × ActionQueues T :=
  let count := min output.length queues.displaced.length
  (count, (queues.displaced.take count).map some ++ output.drop count,
    { queues with displaced := queues.displaced.drop count })

end ActionQueues

structure RawMidiMessage where
  timestampUs : UInt64
  bytes : List UInt8
  len : ℕ

/-- A producer that holds the lock: before it checks the ceiling, and with the
action it minted. -/
inductive Holder (T : Type)
  | admitting (ingress : Instant) (event : T)
  | minted (action : ActionEnvelope T)

/-- The queues of one protocol, the producer inside the lock and the counter of
dropped events. -/
structure Port (T : Type) where
  queues : ActionQueues T
  holder : Option (Holder T)
  queueDropped : UInt64

inductive PortLabel
  | refuse | mint | store
  | drain (contended : Bool)
  | clearProtocolQueues
  | drainDisplaced (output : List (Option ActionIdentity))

namespace Port

variable {T : Type}

def new : Port T := ⟨.new, none, 0⟩

def drop (port : Port T) : Port T := { port with queueDropped := port.queueDropped + 1 }

/-- The producer's `try_lock`. -/
def tryPush (port : Port T) (ingress : Instant) (event : T) (contended : Bool) : Option (Port T) :=
  if contended then some port.drop
  else
    match port.holder with
    | none => some { port with holder := some (.admitting ingress event) }
    | some _ => none

/-- One step inside a critical section, or one whole critical section of the
host.  A step that has to wait for the lock is refused. -/
def step (capacity : ℕ) (source : ActionSourceClass) (sequencer : ActionSequencer) (port : Port T) :
    PortLabel → Option (ActionSequencer × Port T)
  | .refuse =>
    match port.holder with
    | some (.admitting _ _) =>
      if port.queues.unresolvedLen ≥ capacity then
        some (sequencer, { port.drop with holder := none })
      else none
    | _ => none
  | .mint =>
    match port.holder with
    | some (.admitting ingress event) =>
      if port.queues.unresolvedLen ≥ capacity then none
      else
        let (action, advanced) := sequencer.envelopeAt source ingress event
        some (advanced, { port with holder := some (.minted action) })
    | _ => none
  | .store =>
    match port.holder with
    | some (.minted action) =>
      some (sequencer,
        { port with
          queues := { port.queues with admitted := port.queues.admitted ++ [action] }
          holder := none })
    | _ => none
  | .drain contended =>
    if contended then some (sequencer, port)
    else
      match port.holder with
      | none => some (sequencer, { port with queues := { port.queues with admitted := [] } })
      | some _ => none
  | .clearProtocolQueues =>
    match port.holder with
    | none => some (sequencer, { port with queues := port.queues.displaceAdmitted })
    | some _ => none
  | .drainDisplaced output =>
    match port.holder with
    | none => some (sequencer, { port with queues := (port.queues.drainDisplaced output).2.2 })
    | some _ => none

end Port

inductive Protocol
  | osc | midi
  deriving DecidableEq

namespace Protocol

abbrev Payload : Protocol → Type
  | osc => OscEvent
  | midi => RawMidiMessage

def capacity : Protocol → ℕ
  | osc => oscEventQueueCapacity
  | midi => midiRawQueueCapacity

def source : Protocol → ActionSourceClass
  | osc => .osc
  | midi => .midi

end Protocol

/-- The counters `handle_message_at` advances before it tries the lock. -/
structure MidiInputCounters where
  (rawReceived malformed loopSuppressed : UInt64)

structure Ingress where
  sequencer : ActionSequencer
  port : (protocol : Protocol) → Port protocol.Payload
  midi : MidiInputCounters

inductive IngressLabel
  | pushEventAt (ingress : Instant) (event : OscEvent) (contended : Bool)
  | handleMessageAt (ingress : Instant) (timestamp : UInt64)
      (message : List UInt8) (echo contended : Bool)
  | inside (protocol : Protocol) (label : PortLabel)

namespace Ingress

def new : Ingress := ⟨.default, fun _ => .new, ⟨0, 0, 0⟩⟩

def setPort (ingress : Ingress) (protocol : Protocol) (port : Port protocol.Payload) : Ingress :=
  { ingress with port := Function.update ingress.port protocol port }

/-- The message is copied into three bytes, padded with zeros. -/
def rawMessage (timestamp : UInt64) (message : List UInt8) : RawMidiMessage where
  timestampUs := timestamp
  bytes := message ++ List.replicate (3 - message.length) 0
  len := message.length

/-- `handle_message_at` before its `try_lock`: the counters, and the message if
it is neither malformed nor an echo of feedback. -/
def receiveMidi (counters : MidiInputCounters) (timestamp : UInt64)
    (message : List UInt8) (echo : Bool) :
    MidiInputCounters × Option RawMidiMessage :=
  let received := { counters with rawReceived := counters.rawReceived + 1 }
  if !isWellFormedControllerMidi message then
    ({ received with malformed := received.malformed + 1 }, none)
  else if echo then ({ received with loopSuppressed := received.loopSuppressed + 1 }, none)
  else (received, some (rawMessage timestamp message))

def step (ingress : Ingress) : IngressLabel → Option Ingress
  | .pushEventAt at' event contended =>
    ((ingress.port .osc).tryPush at' event contended).map (ingress.setPort .osc)
  | .handleMessageAt at' timestamp message echo contended =>
    let (counters, raw) := receiveMidi ingress.midi timestamp message echo
    let counted := { ingress with midi := counters }
    match raw with
    | none => some counted
    | some raw => ((counted.port .midi).tryPush at' raw contended).map (counted.setPort .midi)
  | .inside protocol label =>
    ((ingress.port protocol).step protocol.capacity protocol.source
      ingress.sequencer label).map fun next =>
        { ingress.setPort protocol next.2 with sequencer := next.1 }

end Ingress

/-- The producers and the host on the two protocols. -/
def ingressMachine : Machine Ingress IngressLabel where
  start ingress := ingress = .new
  step := Ingress.step

end CollideOScope.Actions
