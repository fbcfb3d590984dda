import Rtsrv.Lib.Reader
import Rtsrv.Lib.BigEndian
import Rtsrv.Lib.Escape
import Rtsrv.Wire.UdProto
import Rtsrv.Wire.UdStream
import Rtsrv.Wire.RouteProto
import Rtsrv.Wire.CmdProto
import Rtsrv.Wire.RoutePayload
import Rtsrv.Client.NbSocket
import Rtsrv.Client.VrfExchange
import Rtsrv.Lib.Replay
import Rtsrv.Lib.Run
import Rtsrv.Server.RouteManager
import Rtsrv.Server.Observers
import Rtsrv.Server.ObserverLog
import Rtsrv.Server.ObserverLifetime
import Rtsrv.Server.WatchRoutes
import Rtsrv.Client.RouteTable
import Rtsrv.Client.WorkQueue
import Rtsrv.Client.NlWatch
import Rtsrv.Lib.KeyedFollower
import Rtsrv.Client.NetlinkTables
import Rtsrv.Client.Followers
import Rtsrv.Client.Startup
import Rtsrv.Wire.RouteParams
import Rtsrv.Lib.Crc
import Rtsrv.Wire.Crc16
import Rtsrv.Client.GrpcProc
import Rtsrv.Client.Shutdown
import Rtsrv.Client.RouteAttrs
import Rtsrv.Wire.RouteInstall
import Rtsrv.Client.NlAttrs
import Rtsrv.Client.NlDispatch
import Rtsrv.Client.NlProcess
import Rtsrv.Client.UdpTableServer
import Rtsrv.Config.Common
import Rtsrv.Config.Integers
import Rtsrv.Server.Provisioning
import Rtsrv.Wire.RouteList
import Rtsrv.Client.AddrText
import Rtsrv.Client.Inet6Text
import Rtsrv.Client.LiveRoutes
import Rtsrv.Client.NeighTable
import Rtsrv.Client.NetlinkRoutes
import Rtsrv.Client.NlReplies
import Rtsrv.Client.VrfReply
import Rtsrv.Client.VrfRequests
import Rtsrv.Client.VrfTable
import Rtsrv.Lib.Cursor
import Rtsrv.Wire.Indexed
import Rtsrv.Wire.VrfAnswers
import Rtsrv.Lib.BitPack
import Rtsrv.Wire.PrefixStatus
import Rtsrv.Wire.TlvCommands
import Rtsrv.Client.CidrText
import Rtsrv.Client.VrfIndex
import Rtsrv.Lib.FixedField
import Rtsrv.Client.VrfNames
import Rtsrv.Lib.OnesComplement
import Rtsrv.Client.IcmpChecksum
import Rtsrv.Lib.OrderFree
import Rtsrv.Server.RouteListing
import Rtsrv.Wire.NameReads
import Rtsrv.Server.RouteIds
import Rtsrv.Client.AttrOrder
import Rtsrv.Lib.Feed
import Rtsrv.Client.NlReceive
import Rtsrv.Lib.TextRecord
import Rtsrv.Client.Snapshots
import Rtsrv.Client.NexthopTable
import Rtsrv.Client.WatchTables
import Rtsrv.Lib.Linear
import Rtsrv.Client.RouteClient
import Rtsrv.Client.NlDump
import Rtsrv.Client.DumpRoutes
import Rtsrv.Client.VrfSession
import Rtsrv.Lib.Shelf
import Rtsrv.Client.RouteKernel
import Rtsrv.Client.RouteCommands
import Rtsrv.Config.Switches
import Rtsrv.Client.Sync
import Rtsrv.Client.Interfaces
