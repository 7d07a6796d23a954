import AgentSystem.ActiveAccount
import AgentSystem.AnswerDelivery
import AgentSystem.ApprovalRegistry
import AgentSystem.AttestationBinding
import AgentSystem.AuditExchange
import AgentSystem.AuditProof
import AgentSystem.AuditSync
import AgentSystem.BackgroundTasks
import AgentSystem.ChunkStorage
import AgentSystem.ConcurrentLedgers
import AgentSystem.ConsensusCollateral
import AgentSystem.DebateBudget
import AgentSystem.DelegationRequest
import AgentSystem.ExecutionCheckpoint
import AgentSystem.FailoverUniform
import AgentSystem.GeneratedSkill
import AgentSystem.HandoffPacket
import AgentSystem.MemoryExpiry
import AgentSystem.MeshTunnels
import AgentSystem.MissionDecisions
import AgentSystem.MissionLostUpdate
import AgentSystem.MissionMigration
import AgentSystem.MissionPages
import AgentSystem.MissionReplay
import AgentSystem.MissionVerification
import AgentSystem.MultiClusterLeader
import AgentSystem.PacketBudget
import AgentSystem.PatchBundle
import AgentSystem.PeerGossip
import AgentSystem.PeerHandshake
import AgentSystem.PipelineEnrichment
import AgentSystem.PipelineReview
import AgentSystem.PipelineTerminal
import AgentSystem.PlanDecomposition
import AgentSystem.PlanGraph
import AgentSystem.ProtectedPaths
import AgentSystem.QueryTransparency
import AgentSystem.RaftQuorum
import AgentSystem.RaftReplication
import AgentSystem.RateBackoff
import AgentSystem.RepairIdentity
import AgentSystem.RepairTotality
import AgentSystem.RequestWindows
import AgentSystem.RoleBoundary
import AgentSystem.SecurityVeto
import AgentSystem.SnapshotTransaction
import AgentSystem.StateMirrors
import AgentSystem.StripeBindings
import AgentSystem.StripeExactlyOnce
import AgentSystem.SwarmBroker
import AgentSystem.SwarmHeartbeats
import AgentSystem.TaskProgress
import AgentSystem.TaskQueue
import AgentSystem.ToolAllowlist
import AgentSystem.ToolCallIds
import AgentSystem.ToolTurns
import AgentSystem.UsageAccounting
import AgentSystem.UsageBilling
import AgentSystem.VectorRoot
import AgentSystem.VoteIntegrity
import AgentSystem.WorkflowCheckpoints
import AgentSystem.WorkflowLint
import AgentSystem.WorkflowResume
import AgentSystem.WorkingMemory
import AgentSystem.WorkspaceTasks
