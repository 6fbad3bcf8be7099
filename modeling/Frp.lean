import Frp.Lib.System
import Frp.Lib.Chan
import Frp.Vhost.Auth
import Frp.Vhost.Reuse
import Frp.Client.Wrapper
import Frp.Client.Registration
import Frp.Lib.Ledger
import Frp.Server.Ports
import Frp.Server.PortOwner
import Frp.Server.NatHole
import Frp.Client.ConfMap
import Frp.Client.Service
import Frp.Server.Control
import Frp.Server.ControlInv
import Frp.Server.Shutdown
import Frp.Server.WorkConn
import Frp.Lib.Process
import Frp.Udp.Forward
import Frp.Udp.UDPProxy
import Frp.Udp.SUDPVisitor
import Frp.Udp.Close
import Frp.Client.Calls
import Frp.Client.Control
import Frp.Client.ControlInv
import Frp.Client.Teardown
import Frp.Auth.OIDC
import Frp.Server.ControlManager
import Frp.Server.PortHistory
import Frp.Server.ProxyNames
import Frp.Config.Proxy
import Frp.Config.Wire
import Frp.Vhost.RouteMap
import Frp.Group.HTTP
import Frp.Group.HTTPInv
import Frp.Group.HTTPCalls
import Frp.Group.HTTPRoster
import Frp.Server.HTTPProxy
import Frp.Server.HTTPRoutes
import Frp.Group.Listen
import Frp.Group.ListenInv
import Frp.Group.TCP
import Frp.Group.ListenCalls
import Frp.Group.ListenKept
import Frp.Group.ListenUsable
import Frp.Group.TCPPorts
import Frp.Group.TCPAccounts
import Frp.Server.VisitorManager
import Frp.Server.Visitors
import Frp.Vhost.Lookup
import Frp.Vhost.CanonicalHost
import Frp.Server.LiveRoutes
import Frp.Group.TCPAccept
import Frp.Client.ProxyManager
import Frp.Client.Managers
import Frp.Client.ServiceClose
import Frp.Server.Metrics
import Frp.Metric.DateCounter
import Frp.Server.Plugin
import Frp.Server.NatHoleReplies
import Frp.Lib.GoInt
import Frp.Lib.GoStrconv
import Frp.Server.WorkConnPool
import Frp.Server.PoolCount
import Frp.Server.PortPartition
import Frp.Server.Quota
import Frp.Vhost.RouteTable
import Frp.Config.RangeNumbers
import Frp.Client.Health
import Frp.Group.HTTPTurns
import Frp.Vhost.MuxHandle
import Frp.Vhost.MuxDelivery
import Frp.Client.ReqWorkConn
import Frp.Udp.ClientProxy
import Frp.Udp.WorkConns
import Frp.Client.Plugins
import Frp.Config.Compare
import Frp.Config.RangeSections
import Frp.Server.SubDomain
import Frp.Udp.Forwarder
import Frp.Server.Gauges
import Frp.Metric.Snapshot
import Frp.Lib.GoStream
import Frp.Net.Limit
import Frp.Net.CloseOnce
import Frp.Lib.Relay
import Frp.Net.Tunnel
import Frp.Net.VisitorTunnel
import Frp.Client.Reconnect
import Frp.Lib.GoHeader
import Frp.Net.Heartbeat
import Frp.Net.Sniff
import Frp.Server.MuxRoutes
import Frp.Vhost.FlushLatency
import Frp.Vhost.ProxyResponse
import Frp.Client.AdminConfig
import Frp.Client.HolePunch
