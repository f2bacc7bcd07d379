import Lifecycle.DeliveryInvariants
import Lifecycle.CanonicalText
import Lifecycle.TimeOrder
import Lifecycle.ReclamationLeases
import Lifecycle.CandidateLineage
import Lifecycle.DelegationAccounting
import Lifecycle.ResolverGrowth
import Lifecycle.ControlKinds
import Lifecycle.OperationBatches
import Lifecycle.StopCustody
import Lifecycle.CachedReplays
import Lifecycle.OutputRuns
import Lifecycle.CheckpointClosure
import Lifecycle.DispatchPool
import Lifecycle.RetainedBoundaries
import Lifecycle.FinalChecks
import Lifecycle.ProtectedRoots
import Lifecycle.PathCollisions
import Lifecycle.CheckReceipts
import Lifecycle.ObservationHistories
import Lifecycle.StrictJson
import Lifecycle.JsonText
import Lifecycle.JsonWriters
import Lifecycle.ParsedJson
import Lifecycle.AuthorizationFrames
import Lifecycle.AuthorizationChannel
import Lifecycle.ChannelTruth
import Lifecycle.ChannelRoundTrip
import Lifecycle.ValidationDigests
import Lifecycle.CanonicalDomain
import Lifecycle.KnowledgeConflicts
import Lifecycle.KnowledgeRevisions
import Lifecycle.DescriptionCoverage
import Lifecycle.RelationshipGraph
import Lifecycle.ClosureTraversal
import Lifecycle.EvidenceLaws
import Lifecycle.OutputInventory
import Lifecycle.TerminalCorrespondence
import Lifecycle.RevisionRows
import Lifecycle.CarrierRoundTrip
import Lifecycle.MergeOutputs
import Lifecycle.CandidateReview
import Lifecycle.ClosureExactness
import Lifecycle.CanonicalRoundTrip
import Lifecycle.ReservationPlanning
import Lifecycle.ReservationReadings
import Lifecycle.ReservationRoundTrip
import Lifecycle.ReservationOrder
import Lifecycle.WorkAllowances
import Lifecycle.ReservationAgreement
import Lifecycle.ReservationAcceptance
import Lifecycle.WrittenValues
import Lifecycle.JournalIntegrity
import Lifecycle.SpentReservations
