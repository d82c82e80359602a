import FaceTracking.Theorems.AcceptKey
import FaceTracking.Theorems.AfterClose
import FaceTracking.Theorems.AuthDeadline
import FaceTracking.Theorems.AuthGate
import FaceTracking.Theorems.BoundedMemory
import FaceTracking.Theorems.BytePipe
import FaceTracking.Theorems.CaptureBuffers
import FaceTracking.Theorems.CertPinning
import FaceTracking.Theorems.ClientCap
import FaceTracking.Theorems.CodecAgreement
import FaceTracking.Theorems.CommandOrder
import FaceTracking.Theorems.DetectionStep
import FaceTracking.Theorems.FileListing
import FaceTracking.Theorems.FlatObject
import FaceTracking.Theorems.FrameDecoder
import FaceTracking.Theorems.FramePacing
import FaceTracking.Theorems.FreshFrames
import FaceTracking.Theorems.HeaderLookup
import FaceTracking.Theorems.InboundFraming
import FaceTracking.Theorems.Lifetime
import FaceTracking.Theorems.LiveView
import FaceTracking.Theorems.ManualOverride
import FaceTracking.Theorems.MechanicalLimits
import FaceTracking.Theorems.MobileConnection
import FaceTracking.Theorems.MobileControl
import FaceTracking.Theorems.MobileDownload
import FaceTracking.Theorems.MobileLiveView
import FaceTracking.Theorems.OneMessage
import FaceTracking.Theorems.OutboundFraming
import FaceTracking.Theorems.PathConfinement
import FaceTracking.Theorems.PcDownload
import FaceTracking.Theorems.RegistryBookkeeping
import FaceTracking.Theorems.RemoteControl
import FaceTracking.Theorems.ReplyOutcome
import FaceTracking.Theorems.ScreenBounds
import FaceTracking.Theorems.ServoInit
import FaceTracking.Theorems.SessionDialogue
import FaceTracking.Theorems.SessionOrders
import FaceTracking.Theorems.Shutdown
import FaceTracking.Theorems.SnapshotNames
import FaceTracking.Theorems.StrandedData
import FaceTracking.Theorems.StringCodec
import FaceTracking.Theorems.TlsPlaintext
import FaceTracking.Theorems.TokenCheck
import FaceTracking.Theorems.TrackingLaw
