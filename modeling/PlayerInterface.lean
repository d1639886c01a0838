import PlayerInterface.Core.Reader
import PlayerInterface.IsoBmff.Box
import PlayerInterface.IsoBmff.Parse
import PlayerInterface.IsoBmff.Layout
import PlayerInterface.IsoBmff.Termination
import PlayerInterface.IsoBmff.Extent
import PlayerInterface.IsoBmff.Bounds
import PlayerInterface.IsoBmff.Serialise
import PlayerInterface.IsoBmff.RoundTrip
import PlayerInterface.Core.Transition
import PlayerInterface.Drm.SessionManager
import PlayerInterface.Drm.Calls
import PlayerInterface.Drm.SlotUniqueness
import PlayerInterface.Drm.LicenseOutcome
import PlayerInterface.Aes.Decryptor
import PlayerInterface.Aes.Threads
import PlayerInterface.Aes.JoinSafety
import PlayerInterface.Aes.KeyAgreement
import PlayerInterface.SecManager.Ownership
import PlayerInterface.ClosedCaptions.Manager
import PlayerInterface.ClosedCaptions.Rendering
import PlayerInterface.Core.Keyed
import PlayerInterface.Scheduler.Queue
import PlayerInterface.Scheduler.Threads
import PlayerInterface.Scheduler.Exclusion
import PlayerInterface.Core.Locks
import PlayerInterface.Player.SourceSetup
import PlayerInterface.Player.StopDeadlock
import PlayerInterface.Player.HandlerControl
import PlayerInterface.Player.StopQuiescence
import PlayerInterface.Player.IdleTaskAgreement
import PlayerInterface.Player.Timers
import PlayerInterface.Player.TimerAccounting
import PlayerInterface.Core.LittleEndian
import PlayerInterface.Subtec.Framing
import PlayerInterface.Subtec.PacketSender
import PlayerInterface.Subtec.WakeUps
import PlayerInterface.BaseConversion.Base64
import PlayerInterface.Core.Search
import PlayerInterface.Drm.PlayReadyHeader
import PlayerInterface.Core.Program
import PlayerInterface.Mp4Demux.Demuxer
import PlayerInterface.Mp4Demux.Layout
import PlayerInterface.Mp4Demux.Reading
import PlayerInterface.Mp4Demux.Fragments
import PlayerInterface.Mp4Demux.Descriptors
import PlayerInterface.Mp4Demux.Walk
import PlayerInterface.Mp4Demux.Document
import PlayerInterface.Mp4Demux.SampleTable
import PlayerInterface.Core.Regrouping
import PlayerInterface.SecManager.InputSummary
import PlayerInterface.BaseConversion.Base64Url
import PlayerInterface.Json.CJson
import PlayerInterface.Drm.ClearKeySession
import PlayerInterface.Drm.ClearKeyReady
import PlayerInterface.Drm.ClearKeyHelper
import PlayerInterface.Player.ScopeHelpers
import PlayerInterface.Subtec.Channel
import PlayerInterface.Subtec.Counters
import PlayerInterface.Core.Protobuf
import PlayerInterface.Drm.WidevineHelper
import PlayerInterface.Subtec.SenderThread
import PlayerInterface.Drm.WidevinePssh
import PlayerInterface.Drm.WidevineKeys
import PlayerInterface.Scheduler.Stopping
import PlayerInterface.SecManager.Registered
import PlayerInterface.SecManager.KeepSession
import PlayerInterface.SecManager.ThunderLicense
import PlayerInterface.Json.PlayerJsonObject
import PlayerInterface.SecManager.FireboltLicense
import PlayerInterface.SecManager.FireboltOutcome
import PlayerInterface.SecManager.SelfDeadlock
import PlayerInterface.Mp4Demux.Headers
import PlayerInterface.Mp4Demux.Timeline
import PlayerInterface.Mp4Demux.AdjustTime
import PlayerInterface.Core.NestedLoops
import PlayerInterface.Mp4Demux.Termination
import PlayerInterface.Core.LeftmostMin
import PlayerInterface.Drm.PrimarySlots
import PlayerInterface.Cdmi.Decryptor
import PlayerInterface.SecManager.Shutdown
import PlayerInterface.Ocdm.KeyState
import PlayerInterface.Ocdm.SessionUse
import PlayerInterface.IsoBmff.SegmentIndex
import PlayerInterface.IsoBmff.TopLevel
import PlayerInterface.Mp4Demux.ElementaryStream
import PlayerInterface.IsoBmff.MdatPayload
import PlayerInterface.IsoBmff.Passing
import PlayerInterface.BaseConversion.Counters
import PlayerInterface.BaseConversion.Decoding
import PlayerInterface.IsoBmff.Rewrite
import PlayerInterface.IsoBmff.Retiling
import PlayerInterface.IsoBmff.Truncation
import PlayerInterface.IsoBmff.SampleTables
import PlayerInterface.IsoBmff.Coherence
import PlayerInterface.IsoBmff.TrackId
import PlayerInterface.Aes.KeyRestore
import PlayerInterface.BaseConversion.Base16
import PlayerInterface.Drm.WidevineBounds
import PlayerInterface.PlayerUtils.ResolveURL
import PlayerInterface.Drm.ClearKeyOutcome
import PlayerInterface.Drm.ClearKeyDecrypt
import PlayerInterface.Drm.SubSamples
import PlayerInterface.Drm.SubSampleBounds
import PlayerInterface.Player.CallbackTaskRecord
import PlayerInterface.Player.CallbackTaskRuns
import PlayerInterface.Player.TrackCount
import PlayerInterface.Player.TrackCountAgreement
import PlayerInterface.Core.Occurrences
import PlayerInterface.GstSubtec.ViperTransform
import PlayerInterface.GstSubtec.SegmentTiming
import PlayerInterface.GstSubtec.SplitBuffer
import PlayerInterface.Core.Regex
import PlayerInterface.Drm.HelperComparison
import PlayerInterface.Drm.WidevineMetadata
import PlayerInterface.Subtec.TtmlBegin
import PlayerInterface.Subtec.FirstBegin
import PlayerInterface.Drm.FieldLookup
import PlayerInterface.ClosedCaptions.AttributeStore
import PlayerInterface.ClosedCaptions.TrackGrammar
import PlayerInterface.Subtec.TextStyle
import PlayerInterface.Player.Feeding
import PlayerInterface.Player.SourceGuard
import PlayerInterface.Json.ByteVectors
import PlayerInterface.Player.MonitorAV
import PlayerInterface.Cdmi.KeyWait
import PlayerInterface.Ocdm.WaitEvent
import PlayerInterface.GstSubtec.BoxSearch
import PlayerInterface.GstSubtec.BoxPayload
import PlayerInterface.Core.BitProgram
import PlayerInterface.Ocdm.SeiExtraction
import PlayerInterface.GstSubtec.SubtecSink
import PlayerInterface.GstSubtec.ViperFlush
import PlayerInterface.Mp4Demux.Rescaling
import PlayerInterface.Player.DemuxTimescale
import PlayerInterface.Core.WrappingCounter
import PlayerInterface.Scheduler.TaskIds
import PlayerInterface.Core.History
import PlayerInterface.Core.Registry
import PlayerInterface.Drm.ContentProtection
import PlayerInterface.Subtec.Delivery
import PlayerInterface.Core.Distinct
import PlayerInterface.Cdmi.Caps
import PlayerInterface.Cdmi.ProtectionEvent
import PlayerInterface.IsoBmff.MediaSegment
import PlayerInterface.Subtec.TtmlParser
import PlayerInterface.Drm.ClearKeyPlayback
import PlayerInterface.Player.SignalHandlers
import PlayerInterface.SecManager.Watermark
import PlayerInterface.Ocdm.OutputProtection
import PlayerInterface.Player.PlayState
import PlayerInterface.Player.SettledState
import PlayerInterface.Player.EosCheck
import PlayerInterface.Player.Injection
import PlayerInterface.Player.FirstBuffer
