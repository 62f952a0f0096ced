import TimelapseManager.Storage.OrderRepair
import TimelapseManager.Storage.RenumberCaptures
import TimelapseManager.Storage.FrameCount
import TimelapseManager.Storage.FileRemovalAgrees
import TimelapseManager.Storage.DiskMonitor
import TimelapseManager.Storage.DimensionsInvariant
import TimelapseManager.Db.Restore
import TimelapseManager.Db.Snapshots
import TimelapseManager.Cameras.ImageInfo
import TimelapseManager.Capture.OpenStretches
import TimelapseManager.Capture.CaptureSlots
import TimelapseManager.Capture.CameraSessions
import TimelapseManager.Capture.CameraHealth
import TimelapseManager.Capture.OutageEdges
import TimelapseManager.Capture.AnchorCycles
import TimelapseManager.Capture.AnchorOnce
import TimelapseManager.Capture.NextDue
import TimelapseManager.Capture.IntervalTicks
import TimelapseManager.Capture.LoopFields
import TimelapseManager.Capture.FrameCap
import TimelapseManager.Capture.ReconcileInvariant
import TimelapseManager.Capture.EventTriggers
import TimelapseManager.Security.KeyRotation
import TimelapseManager.Security.PinnedHttp
import TimelapseManager.Security.Forwarded
import TimelapseManager.Security.ThrottleOwn
import TimelapseManager.Monitoring.AlertProgress
import TimelapseManager.Monitoring.DebounceWindow
import TimelapseManager.Monitoring.EventRetention
import TimelapseManager.Web.SelectionInvariant
import TimelapseManager.Web.IdempotencyOnce
import TimelapseManager.Web.BodyLimit
import TimelapseManager.Web.NetRequests
import TimelapseManager.Services.Users
import TimelapseManager.Web.FormFingerprint
import TimelapseManager.Web.MultipartRoundTrip
import TimelapseManager.Render.QueueEvents
import TimelapseManager.Render.Export
import TimelapseManager.Reports.RateLimit
import TimelapseManager.Reports.ReportKeys
import TimelapseManager.Reports.VerifierSound
import TimelapseManager.Reports.TrieLanguage
import TimelapseManager.Encode.ConcatList
import TimelapseManager.Encode.OverlayVerified
