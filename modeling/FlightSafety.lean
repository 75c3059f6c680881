import FlightSafety.Transport.EndOfStream
import FlightSafety.Transport.Send
import FlightSafety.Transport.HandOver
import FlightSafety.Transport.Polling
import FlightSafety.Server.Authenticity
import FlightSafety.Server.ServerClients
import FlightSafety.Server.Confidentiality
import FlightSafety.Server.Relay
import FlightSafety.Server.CommandRow
import FlightSafety.Server.RttComplete
import FlightSafety.Server.Lifecycle
import FlightSafety.Server.CleanupLock
import FlightSafety.Server.Zombies
import FlightSafety.Client.Bookkeeping
import FlightSafety.Client.Reconnection
import FlightSafety.Client.Disconnect
import FlightSafety.Transport.PositionCodec
import FlightSafety.Transport.PaddedDecode
import FlightSafety.Transport.ServerListLoop
import FlightSafety.TransportSsl.SendSession
import FlightSafety.TransportSsl.Setup
import FlightSafety.TransportSsl.CommonName
import FlightSafety.Server.AircraftStatus
import FlightSafety.Transport.CutReport
import FlightSafety.Transport.WrappedReport
import FlightSafety.Server.Telemetry
import FlightSafety.Server.CommandOrder
import FlightSafety.Client.Operations
import FlightSafety.Client.Backoff
import FlightSafety.Client.LearnServers
import FlightSafety.Server.CommandTimeline
import FlightSafety.Server.RegistryAccounts
import FlightSafety.Client.ConnectionStatus
import FlightSafety.Transport.TruncatedReport
import FlightSafety.Transport.WireCoordinates
import FlightSafety.Transport.StatusCodec
import FlightSafety.Server.CommandCodec
import FlightSafety.Transport.LinkChannel
import FlightSafety.Session.Threads
import FlightSafety.Session.Config
import FlightSafety.Server.DbLock
import FlightSafety.Server.ShutdownEnd
import FlightSafety.TransportSsl.Listener
import FlightSafety.Client.Broadcast
import FlightSafety.TransportSsl.Records
import FlightSafety.Transport.Capabilities
