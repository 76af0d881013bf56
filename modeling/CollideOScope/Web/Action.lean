import CollideOScope.Actions.Envelope
import CollideOScope.Gesture.Track

/-!
# Browser actions

The commands a browser can send, as far as the action queue and the gesture
owner read them: a value keeps the fields that name its destination, and the
commands whose fields neither of them reads are one enumeration.
-/

namespace CollideOScope.Web

open Gesture (GesturePhase)

inductive CreativeScopeSnapshot
  | master
  | layer (layerId : String)
  | group (groupId : String)

inductive MotionScopeSnapshot
  | master
  | layer (layerId : String)

inductive MediaSafetyMode
  | safe | expert
  deriving DecidableEq

/-- The request of a controller profile, without the document of an import. -/
inductive ControllerProfileAction
  | import | export
  deriving DecidableEq

/-- The commands without a destination that the queue reads. -/
inductive WebCommand
  | insertVisualNode | removeVisualNode | moveVisualNode
  | setVisualNodeMaskVariant | setVisualNodeRoute | setVisualNodeDisplaceRoute
  | setVisualNodeSymmetryRoute | setVisualNodeResidualRoute
  | setCompositionGroupMatteRoute | resetGroupTransform | applyGroupTransform
  | targetGroupTransformGizmo | clearGroupTransformGizmoTarget
  | createCompositionGroup | removeCompositionGroup | setCompositionGroupMembers
  | moveCompositionRootItem | setCompositionLayerBus | resetMasterTransform
  | applyMasterTransform | addLayer | addPatternLayer | addTextLayer
  | loadClipIntoSlot | removeClipSlot | activateClipSlot | removeClipCue
  | triggerClipCue | prepareScene | captureScene | removeScene | triggerScene
  | replaceAutopilotPlan | autopilotPlay | autopilotPause | autopilotReset
  | addSpoutLayer | removeLayer | moveLayer | toggleVisibility
  | toggleLayerPause | toggleMasterPause | resetFx | resetVisualProgram
  | resetGroup | applyConstraintRemediation | resetLayerTransform
  | applyLayerTransform | resetLayerFx | setLayerMatteInput | reroll | tapTempo
  | bendPad | addRouting | removeRouting | gyroStream | gyroCalibrate
  | setGestureRecording | setPerformanceRecording | setPerformancePlayback
  | clearPerformanceTake | rescanOutputDisplays | toggleOutputWindow
  | morphCapture | snapshotBankSave | snapshotBankRecall | snapshotBankClear
  | morphClear | morphGlide | rescanLibrary | toggleBlackout
  | clearTemporalMemory | triggerCollisionScore | triggerRefreshGarden
  | setRefreshGardenMatteRoute | setRefreshGardenMotionRoute
  | clearTemporalEventTrack | setMotionDonor | setMotionColliderInput
  | clearMotionMemory | requestLayerProxy | startProgramRecording
  | finishProgramRecording | cancelProgramRecording | captureStill
  | startResample | monitorWatch | undoManual | redoManual | captureScopedPreset
  | applyScopedPreset | deleteScopedPreset | restoreRecoveryJournal
  | discardRecoveryJournal | openPatchSnapshot | openPatchLook | quickSavePatch
  | startExport | cancelExport | exportShowBundle | previewShowBundle
  | confirmShowBundleImport | cancelShowBundleImport
  deriving DecidableEq

inductive WebAction
  | quantized (inner : WebAction)
  | setParam (param : String)
  | setMasterTransform (param : String)
  | setVisualNodeParam (scope : CreativeScopeSnapshot) (nodeId param : String)
  | setVisualNodeStudyDocument (scope : CreativeScopeSnapshot)
      (nodeId : String)
  | setCompositionGroupMatteParam (groupId param : String)
  | setCompositionGroupParam (groupId param : String)
  | setGroupTransform (groupId param : String)
  | setCompositionBusCrossfade
  | setCompositionBusMixParam (param : String)
  | setClipTransport (layerId : String) (slotId : ℕ) (param : String)
  | setClipCue (layerId : String) (slotId cueId : ℕ)
  | seekClipSlot (layerId : String) (slotId : ℕ)
  | seekClipSlotTimecode (layerId : String) (slotId : ℕ)
  | setLayerParam (index : ℕ) (layerId : Option String) (param : String)
  | setLayerEffect (index : ℕ) (layerId : Option String) (param : String)
  | setLayerPattern (index : ℕ) (layerId : Option String) (param : String)
  | setLayerText (index : ℕ) (layerId : Option String) (param : String)
  | setLayerTransform (index : ℕ) (layerId : Option String) (param : String)
  | setLayerVisibility (index : ℕ) (layerId : Option String)
  | setLayerPaused (index : ℕ) (layerId : Option String)
  | setLayerMatteParam (layerId param : String)
  | setMasterPaused | setProgramFrozen | setMediaFrozen
  | setMediaSafetyMode (mode : MediaSafetyMode)
  | setNewLayerFit | setProxySettings
  | setLayerRerollOnLoop (index : ℕ) (layerId : Option String)
  | setBlackout
  | setNtscParam (param : String)
  | setBpm
  | setLfo (index : ℕ) (param : String)
  | setEnvelope (index : ℕ) (param : String)
  | setMacro (index : ℕ)
  | setModSeed
  | setRouting (index : ℕ) (routeId : Option String) (param : String)
  | setAudio (param : String)
  | setMidi (param : String)
  | controllerProfile (request : ControllerProfileAction)
  | gyro
  | setGyroConfig (axis param : String)
  | pad (active : Bool)
  | setPadConfig (axis param : String)
  | gestureSample (phase : GesturePhase)
  | setGestureCanvas (param : String)
  | setOutputWindow | setOutputDisplay | setSnapshotBankGlide | setMorph
  | setMorphLaw
  | setTemporal (param : String)
  | setMotion (scope : MotionScopeSnapshot) (param : String)
  | setSpout | setSpoutResolution | setStageHealthHud | setMonitorBay
  | setMonitorProbe | setStageTestCard | setOutputIdentification
  | beginHistoryGesture (gestureId : UInt64)
  | endHistoryGesture (gestureId : UInt64)
  | cancelHistoryGesture (gestureId : UInt64)
  | command (kind : WebCommand)

namespace WebAction

def creativeScopeKey : CreativeScopeSnapshot → String
  | .master => "master"
  | .layer layerId => "layer:" ++ layerId
  | .group groupId => "group:" ++ groupId

/-- `layer_key` and `routing_key`: a nonempty identity, else the index. -/
def indexedKey (index : ℕ) (id : Option String) : String :=
  match id.filter fun id => !id.isEmpty with
  | none => "index:" ++ toString index
  | some id => "id:" ++ id

def isSpatialTransformParam (param : String) : Bool :=
  ["position_x", "position_y", "scale_x", "scale_y", "anchor_x", "anchor_y",
    "rotation_deg", "skew_axis_deg", "skew_deg", "crop_left", "crop_top",
    "crop_right", "crop_bottom", "fit", "edge", "sampling"].contains param

def isMatteScalar (param : String) : Bool := ["amount", "threshold", "softness"].contains param

def coalesceKey : WebAction → Option String
  | quantized inner => inner.coalesceKey.map ("quantized:" ++ ·)
  | setParam param => some ("master:" ++ param)
  | setMasterTransform param => some ("master:transform:" ++ param)
  | setVisualNodeParam scope nodeId param =>
    some ("creative:" ++ creativeScopeKey scope ++ ":node:" ++ nodeId ++ ":" ++ param)
  | setVisualNodeStudyDocument scope nodeId =>
    some ("creative:" ++ creativeScopeKey scope ++ ":node:" ++ nodeId ++ ":study_document")
  | setCompositionGroupParam groupId param =>
    if isSpatialTransformParam param then
      some ("creative:group:" ++ groupId ++ ":transform:" ++ param)
    else some ("creative:group:" ++ groupId ++ ":" ++ param)
  | setGroupTransform groupId param => some ("creative:group:" ++ groupId ++ ":transform:" ++ param)
  | setCompositionGroupMatteParam groupId param =>
    some ("creative:group:" ++ groupId ++ ":matte:" ++ param)
  | setCompositionBusCrossfade => some "creative:composition:bus-crossfade"
  | setCompositionBusMixParam param => some ("creative:composition:bus-mix:" ++ param)
  | setLayerParam index layerId param =>
    some ("layer:" ++ indexedKey index layerId ++ ":param:" ++ param)
  | setLayerEffect index layerId param =>
    some ("layer:" ++ indexedKey index layerId ++ ":effect:" ++ param)
  | setLayerTransform index layerId param =>
    some ("layer:" ++ indexedKey index layerId ++ ":transform:" ++ param)
  | setLayerVisibility index layerId => some ("layer:" ++ indexedKey index layerId ++ ":visible")
  | setLayerPaused index layerId => some ("layer:" ++ indexedKey index layerId ++ ":paused")
  | setClipTransport layerId slotId param =>
    some ("layer:id:" ++ layerId ++ ":slot:" ++ toString slotId ++ ":transport:" ++ param)
  | setClipCue layerId slotId cueId =>
    some ("layer:id:" ++ layerId ++ ":slot:" ++ toString slotId ++ ":cue:" ++ toString cueId)
  | setLayerMatteParam layerId param =>
    if isMatteScalar param then some ("layer:id:" ++ layerId ++ ":matte:" ++ param)
    else none
  | setLayerPattern index layerId param =>
    some ("layer:" ++ indexedKey index layerId ++ ":pattern:" ++ param)
  | setLayerText index layerId param =>
    some ("layer:" ++ indexedKey index layerId ++ ":text:" ++ param)
  | setMasterPaused => some "master:paused"
  | setProgramFrozen => some "master:paused"
  | setMediaFrozen => some "media:frozen"
  | setMediaSafetyMode _ => some "media:safety-mode"
  | setNewLayerFit => some "host:new-layer-fit"
  | setProxySettings => some "host:proxy-settings"
  | setLayerRerollOnLoop index layerId =>
    some ("layer:" ++ indexedKey index layerId ++ ":reroll-on-loop")
  | setBlackout => some "master:blackout"
  | setOutputWindow => some "output:enabled"
  | setOutputDisplay => some "output:display"
  | setNtscParam param => some ("ntsc:" ++ param)
  | setBpm => some "mod:bpm"
  | setLfo index param => some ("lfo:" ++ toString index ++ ":" ++ param)
  | setEnvelope index param => some ("env:" ++ toString index ++ ":" ++ param)
  | setMacro index => some ("macro:" ++ toString index)
  | setModSeed => some "mod:seed"
  | setRouting index routeId param => some ("routing:" ++ indexedKey index routeId ++ ":" ++ param)
  | setAudio param => some ("audio:" ++ param)
  | setMidi param => some ("midi:" ++ param)
  | gyro => some "gyro:sample"
  | setGyroConfig axis param => some ("gyro:" ++ axis ++ ":" ++ param)
  | pad _ => some "pad:position"
  | setPadConfig axis param => some ("pad:" ++ axis ++ ":" ++ param)
  | setSnapshotBankGlide => some "snapshot-bank:glide"
  | setMorph => some "morph:position"
  | setMorphLaw => some "morph:law"
  | setTemporal param => some ("temporal:" ++ param)
  | setGestureCanvas param => some ("gesture:canvas:" ++ param)
  | setMotion .master param => some ("motion:master:" ++ param)
  | setMotion (.layer layerId) param => some ("motion:layer:" ++ layerId ++ ":" ++ param)
  | setSpout => some "spout:enabled"
  | setSpoutResolution => some "spout:resolution"
  | setStageHealthHud => some "stage:health-hud"
  | setMonitorBay => some "stage:monitor-bay"
  | setMonitorProbe => some "stage:monitor-probe"
  | setStageTestCard => some "stage:test-card"
  | setOutputIdentification => some "stage:output-identification"
  | _ => none

end WebAction

namespace WebCommand

/-- The commands that hold an admission reservation. -/
def isPriority : WebCommand → Bool
  | cancelExport | startProgramRecording | finishProgramRecording
  | cancelProgramRecording | captureStill | startResample | undoManual
  | redoManual | captureScopedPreset | applyScopedPreset | deleteScopedPreset
  | restoreRecoveryJournal | discardRecoveryJournal | toggleBlackout
  | rescanOutputDisplays | toggleOutputWindow | reroll | resetFx
  | resetVisualProgram | clearTemporalMemory | triggerCollisionScore
  | triggerRefreshGarden | setRefreshGardenMatteRoute
  | setRefreshGardenMotionRoute | clearTemporalEventTrack
  | setGestureRecording | setPerformanceRecording | setPerformancePlayback
  | clearPerformanceTake | setMotionDonor | setMotionColliderInput
  | requestLayerProxy | clearMotionMemory | loadClipIntoSlot | removeClipSlot
  | activateClipSlot | removeClipCue | triggerClipCue | prepareScene
  | captureScene | removeScene | triggerScene | replaceAutopilotPlan
  | autopilotPlay | autopilotPause | autopilotReset | setLayerMatteInput
  | insertVisualNode | removeVisualNode | moveVisualNode
  | setVisualNodeMaskVariant | setVisualNodeRoute | setVisualNodeDisplaceRoute
  | setVisualNodeSymmetryRoute | setVisualNodeResidualRoute
  | setCompositionGroupMatteRoute | createCompositionGroup
  | removeCompositionGroup | setCompositionGroupMembers
  | moveCompositionRootItem | setCompositionLayerBus | openPatchSnapshot
  | openPatchLook | quickSavePatch | exportShowBundle | previewShowBundle
  | confirmShowBundleImport | cancelShowBundleImport | rescanLibrary
  | bendPad => true
  | _ => false

def isPerformanceOnlyForHistory : WebCommand → Bool
  | activateClipSlot | triggerClipCue | prepareScene | triggerScene
  | autopilotPlay | autopilotPause | autopilotReset | tapTempo | gyroStream
  | gyroCalibrate | bendPad | setGestureRecording | setPerformanceRecording
  | setPerformancePlayback | clearPerformanceTake | targetGroupTransformGizmo
  | clearGroupTransformGizmoTarget | triggerCollisionScore
  | triggerRefreshGarden | clearTemporalEventTrack | clearTemporalMemory
  | clearMotionMemory | rescanOutputDisplays | toggleOutputWindow
  | startProgramRecording | finishProgramRecording | cancelProgramRecording
  | captureStill | startResample | monitorWatch | rescanLibrary
  | quickSavePatch | startExport | cancelExport | exportShowBundle
  | previewShowBundle | confirmShowBundleImport
  | cancelShowBundleImport => true
  | _ => false

end WebCommand

namespace WebAction

def isPriority : WebAction → Bool
  | setStageTestCard | setOutputIdentification | beginHistoryGesture _
  | endHistoryGesture _ | cancelHistoryGesture _ | controllerProfile _
  | setBlackout | setOutputWindow | setOutputDisplay | setMasterPaused
  | setProgramFrozen | setMediaFrozen | setLayerRerollOnLoop _ _
  | setLayerPaused _ _ | setLayerVisibility _ _ | seekClipSlot _ _
  | seekClipSlotTimecode _ _ => true
  | setLayerMatteParam _ param => !isMatteScalar param
  | setMediaSafetyMode mode => mode = .safe
  | pad active => !active
  | gestureSample phase => phase ≠ .move
  | quantized inner => inner.isPriority
  | command kind => kind.isPriority
  | _ => false

def isPerformanceOnlyForHistory : WebAction → Bool
  | quantized _ | seekClipSlot _ _ | seekClipSlotTimecode _ _ | gyro | pad _
  | gestureSample _ | setOutputWindow | setOutputDisplay | setSpout
  | setSpoutResolution | setStageHealthHud | setMonitorBay | setMonitorProbe
  | setStageTestCard | setOutputIdentification => true
  | controllerProfile request => request = .export
  | command kind => kind.isPerformanceOnlyForHistory
  | _ => false

def rescan : WebAction → Option WebCommand
  | command .rescanLibrary => some .rescanLibrary
  | command .rescanOutputDisplays => some .rescanOutputDisplays
  | _ => none

def seekTarget : WebAction → Option (String × ℕ)
  | seekClipSlot layerId slotId => some (layerId, slotId)
  | seekClipSlotTimecode layerId slotId => some (layerId, slotId)
  | _ => none

variable {action : WebAction}

theorem coalesceKey_of_rescan {command : WebCommand}
    (h : action.rescan = some command) : action.coalesceKey = none := by
  unfold rescan at h
  split at h
  · rfl
  · rfl
  · cases h

theorem coalesceKey_of_seekTarget {target : String × ℕ}
    (h : action.seekTarget = some target) : action.coalesceKey = none := by
  unfold seekTarget at h
  split at h
  · rfl
  · rfl
  · cases h

end WebAction

end CollideOScope.Web
