import Arcen.DirectReconnectRuns
import Arcen.ResumeGrants
import Arcen.LaneAttachment
import Arcen.LaneRegistryAuthorization
import Arcen.LaneRegistryOrder
import Arcen.CursorLink
import Arcen.ClipboardSafety
import Arcen.ClipboardTransfer
import Arcen.InputLaneDelivery
import Arcen.PenTabletControllers
import Arcen.BridgedDeviceSoundness
import Arcen.VideoChain
import Arcen.SelectionBridgeRuns
import Arcen.RegionDeadlines
import Arcen.AuthThrottleRuns
import Arcen.TopologyLayouts
import Arcen.TextInputRuns
import Arcen.RegionInputRuns
import Arcen.PenEdges
import Arcen.InputRoleRuns
import Arcen.MediaLaneRuns
import Arcen.LaneRelayReplacement
import Arcen.LaneRelayClipboard
import Arcen.CaptureDamageRuns
import Arcen.HostCertPublication
import Arcen.SoftwareEncodeLoopRuns
import Arcen.MuteLeaseRuns
import Arcen.SessionGrantRuns
import Arcen.VideoQueueAccounting
import Arcen.KeyframeRequests
import Arcen.PlaybackEvidence
import Arcen.PlayoutTarget
import Arcen.ArrivalPacer
import Arcen.MicrophoneJitter
import Arcen.MicrophoneOrder
import Arcen.MonitorRouter
import Arcen.AccountNames
import Arcen.AnnexB
import Arcen.AtomicStart
import Arcen.OutputTransaction
import Arcen.SessionAdmission
import Arcen.DatagramGuard
import Arcen.SenderSlot
import Arcen.RelayCursor
