import OWalkie.Android.CaptureFraming
import OWalkie.Android.OwnTransmission
import OWalkie.Android.PatternStore
import OWalkie.Android.RxPcmJitterBuffer
import OWalkie.Android.WalkieService
import OWalkie.Clients.BalancedObject
import OWalkie.Clients.BracketPort
import OWalkie.Clients.ConnectionLink
import OWalkie.Clients.Endpoint
import OWalkie.Clients.LinkForm
import OWalkie.Clients.LinkRoundTrip
import OWalkie.Clients.SignalClipboard
import OWalkie.Clients.SignalFormat
import OWalkie.Clients.SignalPcm
import OWalkie.Clients.SignalRoundTrip
import OWalkie.Clients.WavLoader
import OWalkie.Core.FailedConnect
import OWalkie.Core.Keepalive
import OWalkie.Core.KeepaliveSpacing
import OWalkie.Core.Lifecycle
import OWalkie.Core.LocalTx
import OWalkie.Core.ManagedBridges
import OWalkie.Core.OneWorker
import OWalkie.Core.ServerMessages
import OWalkie.Core.SessionState
import OWalkie.Core.TxFraming
import OWalkie.Core.TxPipeline
import OWalkie.Core.TxQueue
import OWalkie.Lib.Base64
import OWalkie.Lib.Braces
import OWalkie.Lib.Bytes
import OWalkie.Lib.Countdown
import OWalkie.Lib.Energy
import OWalkie.Lib.Fifo
import OWalkie.Lib.Json
import OWalkie.Lib.JsonText
import OWalkie.Lib.Kotlin
import OWalkie.Lib.Nlohmann
import OWalkie.Lib.OrgJson
import OWalkie.Lib.Register
import OWalkie.Lib.Run
import OWalkie.Lib.Search
import OWalkie.Lib.SlidingWindow
import OWalkie.Lib.Text
import OWalkie.Lib.Tokener
import OWalkie.Lib.Utf8
import OWalkie.Relay.Admission
import OWalkie.Relay.Basic
import OWalkie.Relay.CatchUp
import OWalkie.Relay.Channel
import OWalkie.Relay.ClickTails
import OWalkie.Relay.Config
import OWalkie.Relay.ConfigFields
import OWalkie.Relay.ConfigLoad
import OWalkie.Relay.Confluence
import OWalkie.Relay.DecoderFlush
import OWalkie.Relay.DspFilters
import OWalkie.Relay.DspStages
import OWalkie.Relay.EofDrain
import OWalkie.Relay.EofEvents
import OWalkie.Relay.EofMarks
import OWalkie.Relay.Fade
import OWalkie.Relay.FrameNotice
import OWalkie.Relay.Hub
import OWalkie.Relay.Jitter
import OWalkie.Relay.JitterDepth
import OWalkie.Relay.JitterOrder
import OWalkie.Relay.LegacyConfig
import OWalkie.Relay.Mixer
import OWalkie.Relay.MixerOutput
import OWalkie.Relay.ModuleBlocks
import OWalkie.Relay.Outbound
import OWalkie.Relay.PacketFates
import OWalkie.Relay.PttAgreement
import OWalkie.Relay.RepeatedEof
import OWalkie.Relay.RepeaterPlayback
import OWalkie.Relay.RepeaterTail
import OWalkie.Relay.Restarts
import OWalkie.Relay.ReturnAddress
import OWalkie.Relay.ScanActivity
import OWalkie.Relay.SelfEcho
import OWalkie.Relay.SessionIdentity
import OWalkie.Relay.SilenceTail
import OWalkie.Relay.SingleTalker
import OWalkie.Relay.SquelchBurst
import OWalkie.Relay.SquelchTail
import OWalkie.Relay.TalkerLock
import OWalkie.Relay.TransmitTimeout
import OWalkie.Relay.TxNotices
import OWalkie.Relay.WhiteNoise
import OWalkie.Relay.WsSession
import OWalkie.Windows.Base64Url
import OWalkie.Windows.PlaybackRing
import OWalkie.Windows.PttUplink
import OWalkie.Windows.RelayClient
import OWalkie.Windows.ReleaseBurst
import OWalkie.Windows.SignalEditor
import OWalkie.Windows.StopDeadlock
import OWalkie.Windows.UiSignalQueue
import OWalkie.Wire.Datagram
import OWalkie.Wire.Welcome
