import SocksProxy.Lib.Transition
import SocksProxy.Lib.Window
import SocksProxy.Lib.Scanner
import SocksProxy.Lib.Recogniser
import SocksProxy.Lib.Pipe
import SocksProxy.Lib.Population
import SocksProxy.Lib.Balance
import SocksProxy.Lib.Table
import SocksProxy.Lib.BoundedMap
import SocksProxy.Lib.Failover
import SocksProxy.Lib.Delimited
import SocksProxy.Lib.HalfClose
import SocksProxy.Lib.Framing
import SocksProxy.Lib.Unwinding
import SocksProxy.CString
import SocksProxy.Buffer
import SocksProxy.Parsers
import SocksProxy.Users
import SocksProxy.UserMap
import SocksProxy.Config
import SocksProxy.Net
import SocksProxy.Pop3
import SocksProxy.Sniffer
import SocksProxy.Selector
import SocksProxy.Alike
import SocksProxy.Kernel
import SocksProxy.Socks5.Types
import SocksProxy.Socks5.Handlers
import SocksProxy.Socks5.Machine
import SocksProxy.Socks5.Lifecycle
import SocksProxy.Socks5.Messages
import SocksProxy.Socks5.Grammar
import SocksProxy.Socks5.Recognition
import SocksProxy.Socks5.Connection
import SocksProxy.Socks5.Frame
import SocksProxy.Socks5.Transitions
import SocksProxy.Socks5.Calls
import SocksProxy.Socks5.Relay
import SocksProxy.Socks5.Copying
import SocksProxy.Socks5.RelayExact
import SocksProxy.Socks5.Metering
import SocksProxy.Socks5.Audit
import SocksProxy.Socks5.Wiring
import SocksProxy.Socks5.Attempts
import SocksProxy.Socks5.Upkeep
import SocksProxy.Socks5.Engine
import SocksProxy.Socks5.Handshake
import SocksProxy.Socks5.AuthGate
import SocksProxy.Socks5.Exchange
import SocksProxy.Socks5.Output
import SocksProxy.Socks5.Sniffing
import SocksProxy.Socks5.Interests
import SocksProxy.Socks5.HalfClose
import SocksProxy.Socks5.Refusals
import SocksProxy.Socks5.Failover
import SocksProxy.Socks5.Foresight
import SocksProxy.Socks5.Segmentation
import SocksProxy.Socks5.Connecting
import SocksProxy.Socks5.Destinations
import SocksProxy.Logger
import SocksProxy.Socks5.AccessLog
import SocksProxy.Mgmt.Protocol
import SocksProxy.Mgmt.Handlers
import SocksProxy.Mgmt.Grammar
import SocksProxy.Mgmt.Connection
import SocksProxy.Mgmt.Serving
import SocksProxy.Mgmt.Pipelining
import SocksProxy.Mgmt.Client
import SocksProxy.Mgmt.Codec
import SocksProxy.Mgmt.Responses
import SocksProxy.Mgmt.Settings
import SocksProxy.Mgmt.AuthGate
import SocksProxy.Mgmt.Upkeep
import SocksProxy.Credentials
import SocksProxy.Server.Model
import SocksProxy.Server.Invariant
import SocksProxy.Server.Dispatch
import SocksProxy.Server.Accept
import SocksProxy.Server.Steps
import SocksProxy.Server.Runs
import SocksProxy.Server.Lifecycle
import SocksProxy.Server.Effects
import SocksProxy.Server.Projection
import SocksProxy.Server.Waiting
import SocksProxy.Server.Changes
import SocksProxy.Server.Objects
import SocksProxy.Server.Management
import SocksProxy.Server.Shutdown
import SocksProxy.Server.Exit
import SocksProxy.Server.Traffic
import SocksProxy.Server.Resolution
import SocksProxy.Server.Readiness
import SocksProxy.Server.Completion
import SocksProxy.Socks5.Recycling
import SocksProxy.FdSelector
import SocksProxy.Server.Iteration
import SocksProxy.Lib.Moments
import SocksProxy.Mgmt.Sessions
import SocksProxy.Mgmt.Dialogue
import SocksProxy.Mgmt.Terminal
import SocksProxy.Mgmt.Progress
import SocksProxy.Server.Serial
