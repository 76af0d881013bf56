import CollideOScope.Preparation.Publication
import CollideOScope.Recovery.CrashSafety
import CollideOScope.Recovery.WriterConservation
import CollideOScope.Autopilot.Containment
import CollideOScope.Autopilot.Order
import CollideOScope.Export.Protocol
import CollideOScope.Study.Refinement
import CollideOScope.Midi.Faithful
import CollideOScope.Midi.FeedbackRuns
import CollideOScope.Performance.Replay
import CollideOScope.Actions.Custody
import CollideOScope.Actions.Receipts
import CollideOScope.Web.GestureOrder
import CollideOScope.Web.QueueRuns
import CollideOScope.Composition.Ledger
import CollideOScope.Temporal.Ring
import CollideOScope.Modulation.TopologyCache
import CollideOScope.Video.Delivers
import CollideOScope.Video.HeldPixels
import CollideOScope.Video.Reaper
import CollideOScope.Video.SeekExact
import CollideOScope.Recorder.PcmTimeline
import CollideOScope.Recorder.Publication
import CollideOScope.Recorder.Timeline
import CollideOScope.Patch.LookRecall
import CollideOScope.Mosh.Calls
import CollideOScope.Mosh.Grid
import CollideOScope.Flight.Recovery
import CollideOScope.Morph.SlotHistories
import CollideOScope.Composition.ValidatorAgreement
import CollideOScope.Transport.Timecode
import CollideOScope.History.Eviction
import CollideOScope.Transport.OneShot
import CollideOScope.Preset.Library
import CollideOScope.Patch.DonorSurvival
import CollideOScope.Publication.LatestOnly
import CollideOScope.Temporal.Discard
import CollideOScope.Osc.Echo
import CollideOScope.Modulation.Continuity
import CollideOScope.Stage.Homography
import CollideOScope.Gesture.Surface
import CollideOScope.Library.Runtime
import CollideOScope.Modulation.Clock
import CollideOScope.Video.ReverseCache
import CollideOScope.Video.Failures
import CollideOScope.Proxy.Admission
import CollideOScope.Recorder.Drift
import CollideOScope.Gesture.Canvas
import CollideOScope.Transition.Clock
import CollideOScope.Morph.Glide
import CollideOScope.Audio.Clip
import CollideOScope.Audio.Loader
import CollideOScope.Gesture.Editor
import CollideOScope.Video.Upload
import CollideOScope.Video.Ntsc
import CollideOScope.Video.Keyframes
