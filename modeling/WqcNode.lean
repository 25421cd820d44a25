import WqcNode.Lib.Machine
import WqcNode.Lib.Table
import WqcNode.Lib.Bytes
import WqcNode.Lib.Text
import WqcNode.Lib.Fallible
import WqcNode.Lib.Json
import WqcNode.Lib.Code
import WqcNode.Lib.StableSort
import WqcNode.Lib.Decimal
import WqcNode.Lib.JsonText
import WqcNode.Lib.JsonKeys
import WqcNode.Lib.Serde
import WqcNode.Lib.SerdeValue
import WqcNode.Lib.Saturate
import WqcNode.Lib.Ranged
import WqcNode.Lib.Retry
import WqcNode.Lib.Base64
import WqcNode.MemoryBudget
import WqcNode.Domain.Models
import WqcNode.Domain.Validation
import WqcNode.Domain.ValidatedCircuit
import WqcNode.Infra.Storage
import WqcNode.Infra.CoreHealth
import WqcNode.Domain.Pcs
import WqcNode.Infra.PcsStorage
import WqcNode.Application.NodeMachine
import WqcNode.Application.NodeInvariants
import WqcNode.Application.Recovery
import WqcNode.Application.AcceptOnce
import WqcNode.Application.FailedAccept
import WqcNode.Application.ResultOutbox
import WqcNode.Application.CrashSafety
import WqcNode.Application.NoRecompute
import WqcNode.Application.LedgerEntries
import WqcNode.Application.PcsMachine
import WqcNode.Application.PcsRequests
import WqcNode.Application.PcsOpenCalls
import WqcNode.Application.PcsReproves
import WqcNode.Application.PcsInFlight
import WqcNode.Application.TaskPrune
import WqcNode.Domain.GoFloat
import WqcNode.Domain.GoJson
import WqcNode.Domain.Observables
import WqcNode.Domain.Dispatch
import WqcNode.Domain.GoFloatLayout
import WqcNode.Domain.CanonicalObservables
import WqcNode.Domain.DispatchTail
import WqcNode.Domain.CircuitCanon
import WqcNode.Domain.Result
import WqcNode.Application.ResultWire
import WqcNode.Domain.Features
import WqcNode.Domain.Announcement
import WqcNode.Domain.AnnouncementAuth
import WqcNode.Domain.PcsSigning
import WqcNode.Transport.PcsRequestHandler
import WqcNode.Transport.PcsOpenHandler
import WqcNode.Transport.Host
import WqcNode.Application.TaskIntegrity
import WqcNode.Transport.DispatchHandler
import WqcNode.Domain.Bid
import WqcNode.Domain.Geo
import WqcNode.Domain.BidWire
import WqcNode.Transport.TaskIngress
import WqcNode.Transport.ResultEgress
import WqcNode.Transport.StreamIo
import WqcNode.Transport.BidClient
import WqcNode.Domain.OperatorBid
import WqcNode.Domain.Token
import WqcNode.Domain.WorkBudget
import WqcNode.Domain.LedgerShare
import WqcNode.Domain.LedgerDeadlines
import WqcNode.Domain.LedgerRefusals
import WqcNode.Application.ProofHandover
import WqcNode.Application.Settling
import WqcNode.Application.PcsCoreDown
import WqcNode.Infra.PcsJobJson
import WqcNode.Application.PcsSettling
import WqcNode.Infra.SystemInfo
import WqcNode.Transport.PcsBidClient
