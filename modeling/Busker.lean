import Busker.Interleaving.Machine
import Busker.Interleaving.Census
import Busker.Interleaving.Exclusive
import Busker.Interleaving.Threads
import Busker.Interleaving.Order
import Busker.ResponseRing.Shim
import Busker.ResponseRing.Effects
import Busker.ResponseRing.Protocol
import Busker.ResponseRing.Ledger
import Busker.ResponseRing.Guarantees
import Busker.ResponseRing.Teardown
import Busker.ResponseRing.TeardownSafety
import Busker.Evloop.Mailbox
import Busker.Evloop.Loop
import Busker.Evloop.Shutdown
import Busker.Evloop.Wakeup
import Busker.ResponseQueue.Buffers
import Busker.ResponseQueue.Queue
import Busker.ResponseQueue.OutStream
import Busker.ResponseQueue.SendVecs
import Busker.ResponseQueue.Budget
import Busker.ResponseQueue.NoLostDrain
import Busker.ResponseQueue.Ownership
import Busker.ResponseQueue.Finals
import Busker.ResponseQueue.BodyBytes
import Busker.ResponseQueue.BodySteps
import Busker.ResponseQueue.Fidelity
import Busker.ResponseQueue.Registry
import Busker.Emitter.Calls
import Busker.Emitter.Delivery
import Busker.Emitter.Commit
import Busker.Emitter.BodyOrder
import Busker.Emitter.Informational
import Busker.Emitter.FinalHead
import Busker.ByteQueue.Accounting
import Busker.RequestBody.Channel
import Busker.RequestBody.Writes
import Busker.Tickets.Keys
import Busker.Tickets.Propagation
import Busker.Tickets.SharedStore
import Busker.ByteMemory.Memory
import Busker.FixedFinal.ClojureMap
import Busker.FixedFinal.PathAgreement
import Busker.FixedFinal.Scratch
import Busker.BufferPool.Effects
import Busker.BufferPool.Sizes
import Busker.BufferPool.Totals
import Busker.Interleaving.Monitor
import Busker.ListenerPool.Counting
import Busker.ListenerPool.Paths
import Busker.WakeNotifier.Delivery
import Busker.CallbackDispatch.Dispatch
import Busker.CallbackDispatch.Effects
import Busker.CallbackDispatch.Isolation
import Busker.CloseCallbacks.Chain
import Busker.CloseCallbacks.Delivery
import Busker.ContentLength.Added
import Busker.ContentLength.Delivery
import Busker.Evloop.Space
import Busker.Tempo.Budgets
import Busker.Tempo.Provenance
import Busker.Tempo.Driver
import Busker.Tempo.Recovery
import Busker.Tempo.Assessment
import Busker.Tempo.Gains
import Busker.Tempo.ParentReplay
import Busker.Tempo.ReplayAcceptance
import Busker.SlotArray.Slots
import Busker.UdpTransport.Attachments
import Busker.UdpTransport.Routing
import Busker.Generation.HalfTornDown
import Busker.Generation.FailedStart
import Busker.Certificates.Lookup
import Busker.Certificates.Selection
import Busker.Addresses.Authority
import Busker.Addresses.AuthorityExact
import Busker.Addresses.BindGrammar
import Busker.Addresses.Conflicts
import Busker.Addresses.Entrypoints
import Busker.Tickets.Rotation
import Busker.Tickets.Decoding
import Busker.BufferPool.OneSize
import Busker.RequestBody.BodyFidelity
import Busker.ResponseQueue.BufferSize
import Busker.Tempo.InitialWin
import Busker.ByteQueue.PermitRange
import Busker.Certificates.NameRule
import Busker.Chains.Buckets
import Busker.Dispatch.DispatchChain
import Busker.Dispatch.Reference
import Busker.FixedFinal.Utf8Exact
import Busker.LazyRequest.Agreement
import Busker.RequestHeaders.Decoders
import Busker.RequestHeaders.Documented
import Busker.RequestTable.History
import Busker.UdpTransport.ForwardedHeader
import Busker.Interleaving.Custody
import Busker.Runtime.Server
import Busker.Runtime.Lifecycle
import Busker.Runtime.Services
import Busker.Runtime.Endings
import Busker.Runtime.Reload
import Busker.Admission.Agreement
import Busker.Admission.Delivery
