import FdsPaxos.CrashPoints
import FdsPaxos.ForwardSimulation
import FdsPaxos.OrderedBroadcast
import FdsPaxos.Paxos2AcceptorSafety
import FdsPaxos.Paxos2Agreement
import FdsPaxos.Paxos2BallotUse
import FdsPaxos.Paxos2BatchRoundTrip
import FdsPaxos.Paxos2ClientValues
import FdsPaxos.Paxos2CountersExact
import FdsPaxos.Paxos2CrashAgreement
import FdsPaxos.Paxos2CrashRecovery
import FdsPaxos.Paxos2Deadlines
import FdsPaxos.Paxos2FinalRecords
import FdsPaxos.Paxos2HoleCheck
import FdsPaxos.Paxos2LatestAccept
import FdsPaxos.Paxos2LeaderIndices
import FdsPaxos.Paxos2LearnerDelivery
import FdsPaxos.Paxos2LearnerSoundness
import FdsPaxos.Paxos2LogRefinement
import FdsPaxos.Paxos2PendingList
import FdsPaxos.Paxos2PhaseOneQuorum
import FdsPaxos.Paxos2PhaseTwoLimit
import FdsPaxos.Paxos2ReadFailures
import FdsPaxos.Paxos2StalePromises
import FdsPaxos.Paxos2SubmissionOrder
import FdsPaxos.Paxos2Transactions
import FdsPaxos.Paxos2Validation
import FdsPaxos.Paxos2ValueOrigin
import FdsPaxos.Paxos2ValueSelection
import FdsPaxos.Paxos2ValueSize
import FdsPaxos.Paxos2WindowFits
import FdsPaxos.Paxos2WireRefinement
import FdsPaxos.ReplicatedLog
import FdsPaxos.RingAcceptorSafety
import FdsPaxos.RingAdoptValue
import FdsPaxos.RingAgreement
import FdsPaxos.RingBallots
import FdsPaxos.RingChosenKey
import FdsPaxos.RingCommandSize
import FdsPaxos.RingConfigLines
import FdsPaxos.RingConfigValidity
import FdsPaxos.RingDelayedStart
import FdsPaxos.RingFirstCheck
import FdsPaxos.RingGapRequests
import FdsPaxos.RingLag
import FdsPaxos.RingLearnerRequests
import FdsPaxos.RingLpQueue
import FdsPaxos.RingMappingAborts
import FdsPaxos.RingMemoryPool
import FdsPaxos.RingPackets
import FdsPaxos.RingPhase1Forward
import FdsPaxos.RingProgressIndices
import FdsPaxos.RingRangeLoops
import FdsPaxos.RingRangePromise
import FdsPaxos.RingRangeReplies
import FdsPaxos.RingRecordInvariant
import FdsPaxos.RingSubmissionOrder
import FdsPaxos.RingTimeouts
import FdsPaxos.RingValueOrigin
import FdsPaxos.RingWireRefinement
