import ReachMyDevice.AddressedPeer
import ReachMyDevice.AgentHandover
import ReachMyDevice.AnnexB
import ReachMyDevice.AudioStream
import ReachMyDevice.BalancedInput
import ReachMyDevice.Bootstrap
import ReachMyDevice.BrokerCoherence
import ReachMyDevice.CandidateLog
import ReachMyDevice.CaptureControl
import ReachMyDevice.CapturedOutput
import ReachMyDevice.ClipboardConvergence
import ReachMyDevice.ClipboardEcho
import ReachMyDevice.ClipboardPair
import ReachMyDevice.CredentialLifecycle
import ReachMyDevice.CursorMapping
import ReachMyDevice.DataChannel
import ReachMyDevice.DevRelay
import ReachMyDevice.DownloadsKept
import ReachMyDevice.DownscaleMean
import ReachMyDevice.EncodeDrain
import ReachMyDevice.EncoderRebuilds
import ReachMyDevice.EncoderTimestamps
import ReachMyDevice.Encoders
import ReachMyDevice.EventStream
import ReachMyDevice.FileBounds
import ReachMyDevice.FileEndToEnd
import ReachMyDevice.FileEvents
import ReachMyDevice.FileIndependence
import ReachMyDevice.FingerprintText
import ReachMyDevice.FrameLimiter
import ReachMyDevice.GrubCmdline
import ReachMyDevice.GrubEdit
import ReachMyDevice.Handshake
import ReachMyDevice.HostGate
import ReachMyDevice.HostLink
import ReachMyDevice.HostStartup
import ReachMyDevice.HubRouting
import ReachMyDevice.IceBroker
import ReachMyDevice.IceServers
import ReachMyDevice.IdentityReload
import ReachMyDevice.InjectorBooks
import ReachMyDevice.InjectorSlot
import ReachMyDevice.Ipc
import ReachMyDevice.IpcFraming
import ReachMyDevice.KeyframeRequests
import ReachMyDevice.Keymaps
import ReachMyDevice.KnownPeers
import ReachMyDevice.LatencyControl
import ReachMyDevice.Lib.Backoff
import ReachMyDevice.Lib.Edges
import ReachMyDevice.Lib.Exchange
import ReachMyDevice.Lib.Framing
import ReachMyDevice.Lib.LittleEndian
import ReachMyDevice.Lib.Polyline
import ReachMyDevice.Lib.Histories
import ReachMyDevice.Lib.Quoting
import ReachMyDevice.Lib.Ranking
import ReachMyDevice.Lib.Simulation
import ReachMyDevice.Lib.SingleUse
import ReachMyDevice.Lib.Slots
import ReachMyDevice.Lib.TokenBucket
import ReachMyDevice.Lib.Words
import ReachMyDevice.LoginCalls
import ReachMyDevice.MessagesKept
import ReachMyDevice.OnScreenKeyboard
import ReachMyDevice.PageInput
import ReachMyDevice.PairingAuth
import ReachMyDevice.PairingCompletes
import ReachMyDevice.PairingTicket
import ReachMyDevice.PasskeyLogins
import ReachMyDevice.PasswordGuesses
import ReachMyDevice.PictureAim
import ReachMyDevice.PointerAim
import ReachMyDevice.PointerSentinel
import ReachMyDevice.ReconnectLoop
import ReachMyDevice.RefreshFreshness
import ReachMyDevice.RegistryBinding
import ReachMyDevice.RelayLoop
import ReachMyDevice.RelaySocket
import ReachMyDevice.ReplayCache
import ReachMyDevice.Resampler
import ReachMyDevice.Revocation
import ReachMyDevice.RtpClock
import ReachMyDevice.SecretWrite
import ReachMyDevice.SendOrder
import ReachMyDevice.SessionIsolation
import ReachMyDevice.SessionLock
import ReachMyDevice.SettingsKept
import ReachMyDevice.SignIn
import ReachMyDevice.SignalingPair
import ReachMyDevice.SignalingReconnect
import ReachMyDevice.StatusLink
import ReachMyDevice.SwipeDecode
import ReachMyDevice.SwipePlacement
import ReachMyDevice.SwipeResample
import ReachMyDevice.Tickets
import ReachMyDevice.TokenOwnership
import ReachMyDevice.TokenRotation
import ReachMyDevice.TurnRefresh
import ReachMyDevice.TurnRouting
import ReachMyDevice.TypedText
import ReachMyDevice.UsLayout
import ReachMyDevice.UserRegistration
import ReachMyDevice.VideoGate
import ReachMyDevice.ViewOnly
import ReachMyDevice.ViewerInput
import ReachMyDevice.ViewerKeys
import ReachMyDevice.ViewerLink
import ReachMyDevice.WebInput
import ReachMyDevice.WebPageSessions
import ReachMyDevice.ZoomCoherence
import ReachMyDevice.ZoomSafety
