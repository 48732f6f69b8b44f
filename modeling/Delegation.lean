import Delegation.Describe
import Delegation.Main
import Delegation.NameMap.Lemmas
import Delegation.Session.Basic
import Delegation.Proofs.Outcome
import Delegation.Proofs.RecordTable
import Delegation.Proofs.Refusal
import Delegation.Proofs.World
import Delegation.Proofs.LatestWrite
import Delegation.Proofs.Allocation
import Delegation.Proofs.MethodIdentity
import Delegation.Proofs.RecordHistory
import Delegation.Proofs.Retirement
import Delegation.Proofs.Sharing
import Delegation.Proofs.Population
import Delegation.Proofs.Numbering
import Delegation.Proofs.ConstructionLoop
import Delegation.Proofs.ReportForm
import Delegation.Proofs.IssuedHandles
import Delegation.Proofs.IdentityTests
import Delegation.Proofs.Replay
import Delegation.Proofs.FaithfulJournal
import Delegation.Proofs.Renaming
import Delegation.Proofs.TagCalls
import Delegation.Proofs.Commutation
import Delegation.Proofs.RecordPast
import Delegation.Proofs.OptionReading
import Delegation.Proofs.ArgumentSyntax
import Delegation.Proofs.Mirror
import Delegation.Proofs.MirroredCalls
import Delegation.Proofs.MirroredRoutines
import Delegation.Proofs.RecordLimits
import Delegation.Proofs.Construction
import Delegation.Proofs.Replacement
import Delegation.Proofs.StrategyComparison
import Delegation.Proofs.Snapshots
import Delegation.Proofs.Acceptance
import Delegation.Proofs.Literals
import Delegation.Proofs.TraceForm
import Delegation.Proofs.Growth
import Delegation.Proofs.HandleOrder
import Delegation.Proofs.ValueEquality
import Delegation.Proofs.Serialization
