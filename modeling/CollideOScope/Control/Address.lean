import CollideOScope.Autopilot.Scheduler
import CollideOScope.Composition.Routes

/-!
# Control addresses

MIDI profiles and OSC packets name what they control by one closed vocabulary:
a parameter of a stable scope, or an action on a stable scene.  Neither carries
arbitrary parameter strings past this boundary.
-/

namespace CollideOScope.Control

open CollideOScope.Autopilot (SceneId)
open CollideOScope.Composition (StableLayerId GroupId NodeId)

/-- `char::is_control`: the Unicode category Cc. -/
def isControl (c : Char) : Bool := c.toNat < 0x20 || (0x7f ≤ c.toNat && c.toNat < 0xa0)

inductive ControlParameter
  | value | amount | wet | bypass | enabled | opacity | speed | rate
  | positionX | positionY | scaleX | scaleY | rotation
  | brightness | contrast | saturation | hue | threshold | softness
  | visibility | paused | solo | busCrossfade
  | programFreeze | mediaFreeze | blackout
  | play | seekNormalized | bpm | tapTempo | downbeat
  | clearMotionMemory | clearTemporalMemory
  | gestureX | gestureY | gesturePressure | gestureContact
  | bend1 | bend2 | bend3 | bend4 | bend5 | bend6
  deriving DecidableEq

namespace ControlParameter

def key : ControlParameter → String
  | value => "value"
  | amount => "amount"
  | wet => "wet"
  | bypass => "bypass"
  | enabled => "enabled"
  | opacity => "opacity"
  | speed => "speed"
  | rate => "rate"
  | positionX => "position_x"
  | positionY => "position_y"
  | scaleX => "scale_x"
  | scaleY => "scale_y"
  | rotation => "rotation"
  | brightness => "brightness"
  | contrast => "contrast"
  | saturation => "saturation"
  | hue => "hue"
  | threshold => "threshold"
  | softness => "softness"
  | visibility => "visibility"
  | paused => "paused"
  | solo => "solo"
  | busCrossfade => "bus_crossfade"
  | programFreeze => "program_freeze"
  | mediaFreeze => "media_freeze"
  | blackout => "blackout"
  | play => "play"
  | seekNormalized => "seek_normalized"
  | bpm => "bpm"
  | tapTempo => "tap_tempo"
  | downbeat => "downbeat"
  | clearMotionMemory => "clear_motion_memory"
  | clearTemporalMemory => "clear_temporal_memory"
  | gestureX => "gesture_x"
  | gestureY => "gesture_y"
  | gesturePressure => "gesture_pressure"
  | gestureContact => "gesture_contact"
  | bend1 => "bend1"
  | bend2 => "bend2"
  | bend3 => "bend3"
  | bend4 => "bend4"
  | bend5 => "bend5"
  | bend6 => "bend6"

def parse : String → Option ControlParameter
  | "value" => some value
  | "amount" => some amount
  | "wet" => some wet
  | "bypass" => some bypass
  | "enabled" => some enabled
  | "opacity" => some opacity
  | "speed" => some speed
  | "rate" => some rate
  | "position_x" => some positionX
  | "position_y" => some positionY
  | "scale_x" => some scaleX
  | "scale_y" => some scaleY
  | "rotation" => some rotation
  | "brightness" => some brightness
  | "contrast" => some contrast
  | "saturation" => some saturation
  | "hue" => some hue
  | "threshold" => some threshold
  | "softness" => some softness
  | "visibility" => some visibility
  | "paused" => some paused
  | "solo" => some solo
  | "bus_crossfade" => some busCrossfade
  | "program_freeze" => some programFreeze
  | "media_freeze" => some mediaFreeze
  | "blackout" => some blackout
  | "play" => some play
  | "seek_normalized" => some seekNormalized
  | "bpm" => some bpm
  | "tap_tempo" => some tapTempo
  | "downbeat" => some downbeat
  | "clear_motion_memory" => some clearMotionMemory
  | "clear_temporal_memory" => some clearTemporalMemory
  | "gesture_x" => some gestureX
  | "gesture_y" => some gestureY
  | "gesture_pressure" => some gesturePressure
  | "gesture_contact" => some gestureContact
  | "bend1" => some bend1
  | "bend2" => some bend2
  | "bend3" => some bend3
  | "bend4" => some bend4
  | "bend5" => some bend5
  | "bend6" => some bend6
  | _ => none

theorem parse_key (parameter : ControlParameter) : parse parameter.key = some parameter := by
  cases parameter <;> rfl

theorem parse_eq_some {text : String} {parameter : ControlParameter} :
    parse text = some parameter ↔ text = parameter.key := by
  constructor
  · intro h
    unfold parse at h
    split at h
    case h_44 => cases h
    all_goals
      have hparam := Option.some.inj h
      subst hparam
      rfl
  · rintro rfl
    exact parse_key parameter

end ControlParameter

inductive RuntimeNodeScope
  | master
  | layer (layerId : StableLayerId)
  | group (groupId : GroupId)
  deriving DecidableEq

inductive RuntimeControlAddress
  | legacyMidiSlot (slot : UInt8)
  | master (parameter : ControlParameter)
  | layer (layerId : StableLayerId) (parameter : ControlParameter)
  | group (groupId : GroupId) (parameter : ControlParameter)
  | node (scope : RuntimeNodeScope) (nodeId : NodeId)
      (parameter : ControlParameter)
  | transport (parameter : ControlParameter)
  | scenePrepare (sceneId : SceneId)
  | sceneTrigger (sceneId : SceneId)
  deriving DecidableEq

/-- Scene actions are pulses, not scalar parameters. -/
def RuntimeControlAddress.isSceneAction : RuntimeControlAddress → Bool
  | scenePrepare _ => true
  | sceneTrigger _ => true
  | _ => false

inductive AutomationValue (F : Type*)
  | absolute (value : F)
  | delta (value : F)
  | trigger
  | gate (value : Bool)
  deriving DecidableEq

inductive SocketAddr
  | v4 (ip : BitVec 32) (port : UInt16)
  | v6 (ip : BitVec 128) (port : UInt16) (flowinfo scopeId : UInt32)
  deriving DecidableEq

inductive AutomationOrigin
  | midi
  | osc (source : SocketAddr)
  | hostAutomation
  deriving DecidableEq

end CollideOScope.Control
