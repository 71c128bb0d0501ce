import PySwitch.Async.Invariant
import PySwitch.CircuitTrace
import PySwitch.Machine
import PySwitch.ClaimRuns
import PySwitch.ExactlyOnce
import PySwitch.ProviderCalls
import PySwitch.CoordinatorAgreement
import PySwitch.CoordinatorCalls
import PySwitch.OrphanClaims
import PySwitch.Replay
import PySwitch.OpenCircuit
import PySwitch.Recovery
import PySwitch.HalfOpenProbe
import PySwitch.Inflight
import PySwitch.LedgerProtocol
import PySwitch.RefundLedger
import PySwitch.OutboxDispatch
import PySwitch.LifecycleLog
import PySwitch.PublishOrder
import PySwitch.CallHistory
import PySwitch.OverRefund
import PySwitch.SqlRefunds
import PySwitch.RateAgreement
import PySwitch.RateClock
import PySwitch.WeightedFairness
import PySwitch.CompositeRouting
import PySwitch.Declines
import PySwitch.SlotInvariant
import PySwitch.ConcurrencyLimit
import PySwitch.Api
import PySwitch.Columns
import PySwitch.Booking
import PySwitch.Admission
import PySwitch.SqlTransaction
import PySwitch.SqlSaves
import PySwitch.DelayOverflow
import PySwitch.ProviderStatistics
import PySwitch.Consumers
import PySwitch.RequestIdentity
import PySwitch.RetryProtocol
import PySwitch.RetryCount
import PySwitch.CircuitRecord
import PySwitch.CircuitEvents
import PySwitch.SqlRoundTrip
import PySwitch.RefundIds
import PySwitch.Listing
import PySwitch.ListOrder
import PySwitch.TimeoutProtocol
import PySwitch.AmbiguousTimeout
import PySwitch.ChargeProtocol
import PySwitch.RepeatedCharge
import PySwitch.Async.Both
import PySwitch.CreateWorkers
import PySwitch.LeaseProtocol
import PySwitch.Leases
import PySwitch.LeasedCharges
import PySwitch.Async.Termination
import PySwitch.SemaphoreQueue
import PySwitch.CreateFootprint
import PySwitch.RefundLocks
import PySwitch.SlotQueues
import PySwitch.OwnedClaims
import PySwitch.Conclusion
import PySwitch.RouterRuns
import PySwitch.OutboxWorker
import PySwitch.ProviderLoad
import PySwitch.Pipeline
import PySwitch.PaymentHistory
import PySwitch.Administration
