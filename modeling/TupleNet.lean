import TupleNet.Lib.Machine
import TupleNet.Lib.Table
import TupleNet.Lib.Rule
import TupleNet.Lib.Dict
import TupleNet.Lib.Text
import TupleNet.Lib.GoText
import TupleNet.Lib.InetAddr
import TupleNet.Lib.Txn
import TupleNet.Lib.Range
import TupleNet.Lib.Pieces
import TupleNet.Lib.Cuts
import TupleNet.Lib.EndAround
import TupleNet.Lib.Collect
import TupleNet.Lib.Unanswered
import TupleNet.Lib.Bits
import TupleNet.Lib.Resubmit
import TupleNet.LinkMaster.WatchMaster
import TupleNet.LinkMaster.Replica
import TupleNet.LinkMaster.Reconnect
import TupleNet.Flow.Convert
import TupleNet.TupleSync.OvsSide
import TupleNet.TupleSync.Retry
import TupleNet.Control.Bookkeeping
import TupleNet.Control.Device
import TupleNet.Control.RecordText
import TupleNet.Control.AddCommand
import TupleNet.Control.Listing
import TupleNet.Control.AddRequest
import TupleNet.Control.FrontEnd
import TupleNet.Control.Controller
import TupleNet.Control.SaveConcurrent
import TupleNet.Control.DeletePlan
import TupleNet.Control.DeleteConcurrent
import TupleNet.Control.PortAddress
import TupleNet.Control.PortAllocation
import TupleNet.Control.SubnetAllocation
import TupleNet.Control.RecursiveDelete
import TupleNet.Control.OrphanGuard
import TupleNet.Control.Ownership
import TupleNet.Zoo.Entity
import TupleNet.Zoo.Zoo
import TupleNet.Zoo.Invariant
import TupleNet.Zoo.Additions
import TupleNet.Zoo.Mirror
import TupleNet.Zoo.Records
import TupleNet.Zoo.Touched
import TupleNet.Zoo.Ilk
import TupleNet.Zoo.Refusal
import TupleNet.Zoo.Detection
import TupleNet.Zoo.Shared
import TupleNet.Flow.OpenFlow
import TupleNet.Flow.LogicalView
import TupleNet.Flow.Rounds
import TupleNet.Flow.Redirect
import TupleNet.Flow.IpRoute
import TupleNet.Flow.Nat
import TupleNet.Flow.Ecmp
import TupleNet.Flow.EcmpRounds
import TupleNet.Flow.RouteTable
import TupleNet.Flow.LongestPrefix
import TupleNet.Flow.Tunnel
import TupleNet.Flow.Packet
import TupleNet.Flow.SwitchStages
import TupleNet.Flow.RouterStages
import TupleNet.Flow.BuildFlows
import TupleNet.Flow.Forms
import TupleNet.Flow.Lookups
import TupleNet.Flow.TableOrder
import TupleNet.Flow.Delivery
import TupleNet.Flow.Hosts
import TupleNet.Flow.Stages
import TupleNet.Flow.SwitchTables
import TupleNet.Flow.RouterTables
import TupleNet.Flow.Unicast
import TupleNet.TupleSync.UpdateEntity
import TupleNet.TupleSync.RemoteUpdate
import TupleNet.TupleSync.PortWriters
import TupleNet.TupleSync.InterfaceMonitor
import TupleNet.TupleSync.OvsdbMan
import TupleNet.TupleSync.PktController
import TupleNet.TupleSync.ArpBinding
import TupleNet.TupleSync.CommitOvs
import TupleNet.TupleSync.ChassisRewrite
import TupleNet.Control.AddressForms
import TupleNet.Control.SaveRetry
import TupleNet.Control.BitmapRebuild
import TupleNet.Control.IdSearch
import TupleNet.Control.DeleteOutcome
import TupleNet.Control.DockerPlugin
import TupleNet.Control.MacForms
import TupleNet.PktTrace.Checksum
import TupleNet.PktTrace.PairSelection
import TupleNet.Flow.Circulation
import TupleNet.Flow.Routed
