import Jagles.ByteMemory
import Jagles.GuardedRuns
import Jagles.Quantisers
import Jagles.G711
import Jagles.Pcma
import Jagles.FramePacing
import Jagles.Throwing
import Jagles.RenderThread
import Jagles.RenderThreadTurns
import Jagles.RenderThreadSteps
import Jagles.RenderThreadInvariant
import Jagles.RenderThreadHandover
import Jagles.RenderThreadWaits
import Jagles.CriticalSections
import Jagles.LinkedCells
import Jagles.LinkChains
import Jagles.MediaBuffer
import Jagles.MediaBufferFrames
import Jagles.MediaBufferHistory
import Jagles.MediaBufferLayout
import Jagles.MediaBufferSearch
import Jagles.MediaBufferReads
import Jagles.MediaBufferDelivery
import Jagles.MediaBufferGapFree
import Jagles.MediaBufferFailedReads
import Jagles.MediaBufferRuns
import Jagles.MediaBufferKeyFrames
import Jagles.MediaBufferBounds
import Jagles.MediaBufferCounters
import Jagles.MediaBufferBacklog
import Jagles.MediaBufferFifo
import Jagles.MediaBufferLease
import Jagles.TaskQueue
import Jagles.TaskQueueOrder
import Jagles.TaskQueueDrain
import Jagles.TaskPayloads
import Jagles.LinkedList
import Jagles.LinkedListRefinement
import Jagles.NormalScreen
import Jagles.Animations
import Jagles.KeyedTable
import Jagles.MotionTracking
import Jagles.MotionTrackingLifecycle
import Jagles.ReferenceCounts
import Jagles.Connector
import Jagles.ConnectorRouting
import Jagles.ConnectorPlaybacks
import Jagles.ConnectorLogin
import Jagles.ConnectorRegistry
import Jagles.ConnectorRegistryUnique
import Jagles.Clients
import Jagles.ClientChanges
import Jagles.ClientUse
import Jagles.ClientContexts
import Jagles.ClientReconnect
import Jagles.ClientPlayback
import Jagles.ClientPlaybackSound
import Jagles.AlarmMessages
import Jagles.Decoder
import Jagles.DecoderLock
import Jagles.RecordSearch
import Jagles.Download
import Jagles.DownloadStream
import Jagles.DownloadFraming
import Jagles.DownloadLists
import Jagles.DownloadComplete
import Jagles.DownloadSafety
import Jagles.DownloadSessions
import Jagles.SmartLink
import Jagles.SmartLinkBounds
import Jagles.BitPrograms
import Jagles.NalUnits
import Jagles.Extradata
import Jagles.H264
import Jagles.H264RoundTrip
import Jagles.H264Scan
import Jagles.H265
import Jagles.H265Scan
import Jagles.H265RoundTrip
import Jagles.HeaderSafety
import Jagles.ConnectHandles
import Jagles.ViewModes
import Jagles.ViewModeRequests
import Jagles.Pipelines
import Jagles.VoiceTalk
import Jagles.VoiceTalkSessions
import Jagles.Json
import Jagles.JsonTemplates
import Jagles.DeviceProtocolUtil
import Jagles.DistortionCache
import Jagles.DistortionTables
import Jagles.SetDeviceProtocolUtil
import Jagles.DeviceMessages
import Jagles.AccessTraces
import Jagles.MotionCoverage
import Jagles.ScreenIndex
import Jagles.NormalScreenTouch
import Jagles.Recorder
import Jagles.RecordTimestamps
import Jagles.AudioFrames
import Jagles.CStrings
import Jagles.ConnectStrings
import Jagles.TextRendering
import Jagles.TrackingSlots
import Jagles.LensDistortion
import Jagles.FloatSigns
import Jagles.EdgeScans
import Jagles.CircleDetection
import Jagles.NormalPlay
import Jagles.TriangleMeshes
import Jagles.ParametricSurface
import Jagles.ByteBuffers
import Jagles.AudioChunks
import Jagles.VideoEncoder
import Jagles.VideoEncoderTimes
import Jagles.VideoEncoderLifecycle
import Jagles.CropDetection
import Jagles.MotionBoxes
import Jagles.SlotTables
import Jagles.ConnectTable
import Jagles.ConnectTableGuards
import Jagles.HeldResources
import Jagles.FilePlayer
import Jagles.FilePlayerLoop
import Jagles.FilePlayerRuns
import Jagles.MotionTextures
import Jagles.MotionTexturesHandoff
import Jagles.MotionTexturesServed
import Jagles.ExpGolomb
