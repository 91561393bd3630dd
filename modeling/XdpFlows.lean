import XdpFlows.Core.Sections
import XdpFlows.Core.Guarantee
import XdpFlows.Core.RingWindow
import XdpFlows.Core.Lists
import XdpFlows.Core.SessionWindow
import XdpFlows.Core.CircularList
import XdpFlows.Core.ByteReader
import XdpFlows.Core.InternetChecksum
import XdpFlows.Core.FormattedText
import XdpFlows.Core.BoundedQueue
import XdpFlows.Core.Ebpf
import XdpFlows.Core.Ledger
import XdpFlows.Flow.Packet
import XdpFlows.Flow.Reads
import XdpFlows.Flow.Headers
import XdpFlows.Flow.Encoding
import XdpFlows.Flow.Store
import XdpFlows.Flow.NodeHeap
import XdpFlows.Flow.TextLine
import XdpFlows.Flow.Monitor
import XdpFlows.Flow.FlowFile
import XdpFlows.Flow.Footprint
import XdpFlows.Flow.Layout
import XdpFlows.Flow.Pools
import XdpFlows.Flow.Export
import XdpFlows.Flow.Effects
import XdpFlows.Flow.Atomicity
import XdpFlows.Flow.Clock
import XdpFlows.Flow.Cleanup
import XdpFlows.Flow.Update
import XdpFlows.Flow.Insert
import XdpFlows.Flow.Process
import XdpFlows.Flow.Runs
import XdpFlows.Flow.History
import XdpFlows.Flow.Accounts
import XdpFlows.Flow.Rollback
import XdpFlows.Flow.Aggregation
import XdpFlows.Flow.Delivery
import XdpFlows.Flow.Intake
import XdpFlows.Flow.Counting
import XdpFlows.Flow.Expiry
import XdpFlows.Flow.PoolHeap
import XdpFlows.Flow.Handover
import XdpFlows.Flow.Completion
import XdpFlows.Flow.Files
import XdpFlows.Flow.Accounting
import XdpFlows.Umem.XskRing
import XdpFlows.Umem.Socket
import XdpFlows.Umem.Frames
import XdpFlows.Umem.Receive
import XdpFlows.Umem.Reception
import XdpFlows.Umem.RingProtocol
import XdpFlows.Umem.Order
import XdpFlows.Umem.Capture
import XdpFlows.Umem.XskSetup
import XdpFlows.Xdp.Echo
import XdpFlows.Xdp.Verdict
import XdpFlows.Xdp.PktgenFilter
import XdpFlows.Xdp.DefaultProgram
import XdpFlows.System.Pipeline
