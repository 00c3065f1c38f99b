import Qaoed.Library.BlockMap
import Qaoed.Library.Mealy
import Qaoed.Device.Handlers
import Qaoed.Device.HandlerSpec
import Qaoed.Device.Server
import Qaoed.Device.AccessControl
import Qaoed.Device.SectorStore
import Qaoed.Device.ConfigString
import Qaoed.Device.ReceivedBytes
import Qaoed.Device.Transfers
import Qaoed.Device.ErrorIndication
import Qaoed.Device.Capacity
import Qaoed.Device.Correlation
import Qaoed.Device.FreshMemory
import Qaoed.Device.StringMatch
import Qaoed.Device.CfgBounds
import Qaoed.Library.LinkedFifo
import Qaoed.Library.Transition
import Qaoed.Daemon.Shutdown
import Qaoed.Device.Worker
import Qaoed.Config.Validate
import Qaoed.Network.Dispatch
import Qaoed.Network.Listener
import Qaoed.Network.Multipath
import Qaoed.Network.Exchange
import Qaoed.Network.Advertisement
import Qaoed.Config.Interfaces
import Qaoed.Config.AnnouncedSectors
import Qaoed.Library.RefCount
import Qaoed.Network.Holders
import Qaoed.Network.RefCounting
import Qaoed.Config.Records
import Qaoed.Config.Load
import Qaoed.Config.FirstMatch
import Qaoed.Config.SectionSpec
import Qaoed.Library.LinkedWalk
import Qaoed.Config.LogChain
import Qaoed.Config.AclKeywords
import Qaoed.Config.LoadSpec
import Qaoed.Config.Complete
import Qaoed.Config.Acceptance
import Qaoed.Config.GivenAddresses
import Qaoed.Config.InterfaceSearch
import Qaoed.Config.Binding
import Qaoed.Api.Messages
import Qaoed.Api.Startup
import Qaoed.Library.RwLock
import Qaoed.Api.Handlers
import Qaoed.Api.AccessLists
import Qaoed.Api.AclCounts
import Qaoed.Api.Locks
import Qaoed.Library.DoublyLinked
import Qaoed.Api.HandlerSpec
import Qaoed.Api.Removal
import Qaoed.Api.InterfaceCounts
import Qaoed.Api.Addresses
import Qaoed.Api.Validity
import Qaoed.Config.Attachment
import Qaoed.Api.Refusals
import Qaoed.Library.Framing
import Qaoed.Api.Wire
import Qaoed.Api.Replies
import Qaoed.Api.Requests
import Qaoed.Library.Records
import Qaoed.Api.Client
import Qaoed.Api.Arguments
import Qaoed.Api.PolicyViews
import Qaoed.Rcfg.Tokenize
import Qaoed.Rcfg.Parse
import Qaoed.Rcfg.Layout
import Qaoed.Rcfg.Validate
import Qaoed.Rcfg.Grammar
import Qaoed.Rcfg.Indices
import Qaoed.Rcfg.MissingTokens
import Qaoed.Rcfg.RestrictedArguments
import Qaoed.Library.Recursion
import Qaoed.Rcfg.Include
import Qaoed.Daemon.Reload
import Qaoed.Api.ReplyBuffer
import Qaoed.Device.Addressing
import Qaoed.Device.WorkQueue
import Qaoed.Rcfg.Expansion
import Qaoed.Api.DeviceList
import Qaoed.Api.TargetCommand
import Qaoed.Api.InterfaceCommands
import Qaoed.Rcfg.ScanBounds
import Qaoed.Rcfg.Buffers
import Qaoed.Rcfg.Pieces
import Qaoed.Rcfg.Places
import Qaoed.Rcfg.LineBuffer
import Qaoed.Rcfg.Quoting
import Qaoed.Library.Interference
import Qaoed.Device.Isolation
import Qaoed.Device.Retransmission
import Qaoed.Network.Service
import Qaoed.Network.Serial
import Qaoed.Network.Progress
import Qaoed.Network.SharedFile
import Qaoed.Network.Replies
import Qaoed.Rcfg.ReadConfig
import Qaoed.Config.Plan
import Qaoed.Config.PlanLoads
import Qaoed.Rcfg.PlannedFile
import Qaoed.Library.LockOrder
import Qaoed.Daemon.LockSafety
import Qaoed.Network.Claiming
import Qaoed.Daemon.ClientSessions
import Qaoed.Config.PlanPolicy
import Qaoed.Network.Guarded
import Qaoed.Daemon.PlannedServer
import Qaoed.Library.Strides
import Qaoed.Network.Capture
import Qaoed.Daemon.Additions
