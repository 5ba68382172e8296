import XChainSdk.Address.Codec
import XChainSdk.Api.RateLimit
import XChainSdk.Api.RateLimitSafety
import XChainSdk.Betting.PayoutExactness
import XChainSdk.Betting.PayoutProjection
import XChainSdk.Carrier.ActionWaiter
import XChainSdk.Carrier.ReconcileEncoded
import XChainSdk.Carrier.Reconciliation
import XChainSdk.Carrier.ReleaseOrder
import XChainSdk.Carrier.ScriptMatching
import XChainSdk.Carrier.SessionSafety
import XChainSdk.Carrier.SpeculativeCache
import XChainSdk.Carrier.Submission
import XChainSdk.Carrier.WalletSession
import XChainSdk.Checkpoint.Canonical
import XChainSdk.Checkpoint.Spelling
import XChainSdk.Checkpoint.Unambiguous
import XChainSdk.Checkpoint.Verify
import XChainSdk.Compaction.CompactionSafety
import XChainSdk.Compaction.IssueVersion
import XChainSdk.Compaction.RefFields
import XChainSdk.Compaction.Resolvers
import XChainSdk.Consensus.Gates
import XChainSdk.Consensus.StakeQuorum
import XChainSdk.Consensus.StakeSafety
import XChainSdk.Contract.Allocators
import XChainSdk.Contract.Ast
import XChainSdk.Contract.DeployPlan
import XChainSdk.Contract.FrameWeight
import XChainSdk.Contract.Metering
import XChainSdk.Contract.MeteringCharges
import XChainSdk.Contract.MeteringErasure
import XChainSdk.Contract.MeteringGuards
import XChainSdk.Contract.MeteringInversion
import XChainSdk.Contract.MeteringNames
import XChainSdk.Contract.SyntaxDepthSoundness
import XChainSdk.Cosigner.AgentSafety
import XChainSdk.Cosigner.AgentSession
import XChainSdk.Cosigner.Conservation
import XChainSdk.Cosigner.DaemonRun
import XChainSdk.Cosigner.Envelope
import XChainSdk.Cosigner.EnvelopeGrammar
import XChainSdk.Cosigner.EvaluatePolicy
import XChainSdk.Cosigner.PolicyAuthority
import XChainSdk.Cosigner.PolicyLimits
import XChainSdk.Cosigner.PolicySoundness
import XChainSdk.Cosigner.Respelling
import XChainSdk.Cosigner.RoundAgreement
import XChainSdk.Cosigner.SignRequest
import XChainSdk.Cosigner.SigningClient
import XChainSdk.Cosigner.Transaction
import XChainSdk.Cosigner.TweakSafety
import XChainSdk.Cosigner.WindowDurability
import XChainSdk.Cosigner.WindowExclusion
import XChainSdk.Cosigner.WindowLedger
import XChainSdk.Cosigner.WindowLock
import XChainSdk.Cosigner.WindowSafety
import XChainSdk.Cosigner.WindowSpending
import XChainSdk.Decoder.BatchReading
import XChainSdk.Decoder.Legs
import XChainSdk.Hub.ConfigRefinement
import XChainSdk.Hub.ConfigSync
import XChainSdk.Hub.ConfigTree
import XChainSdk.Js.Number
import XChainSdk.Js.Stringify
import XChainSdk.Js.Value
import XChainSdk.Lib.Bytes
import XChainSdk.Lib.Cursor
import XChainSdk.Lib.HashTree
import XChainSdk.Lib.Rose
import XChainSdk.Lib.Tokens
import XChainSdk.Lib.WorkerPool
import XChainSdk.LightClient.ActionInclusion
import XChainSdk.LightClient.Agreement
import XChainSdk.LightClient.AnchorBundle
import XChainSdk.LightClient.AnchorParsing
import XChainSdk.LightClient.BalanceSoundness
import XChainSdk.LightClient.BoundLeaf
import XChainSdk.LightClient.CommittedStakes
import XChainSdk.LightClient.LeafText
import XChainSdk.LightClient.ProofChecks
import XChainSdk.LightClient.ProvenQuorum
import XChainSdk.LightClient.ProvenSet
import XChainSdk.LightClient.StateProofSoundness
import XChainSdk.LightClient.StateProofs
import XChainSdk.Merkle.BlockContent
import XChainSdk.Merkle.CanonicalAmounts
import XChainSdk.Merkle.CompressedProofs
import XChainSdk.Merkle.FixedProofs
import XChainSdk.Merkle.Preimages
import XChainSdk.Merkle.Primitives
import XChainSdk.Merkle.SampleHash
import XChainSdk.Merkle.Smt
import XChainSdk.Merkle.SmtProofs
import XChainSdk.Merkle.SmtSoundness
import XChainSdk.Merkle.SmtTree
import XChainSdk.Merkle.StateRoot
import XChainSdk.Preflight.Coalescer
import XChainSdk.Preflight.FeeBudget
import XChainSdk.Preflight.NumericExactness
import XChainSdk.Preflight.Precedence
import XChainSdk.Preflight.ProjectionSafety
import XChainSdk.Protocol.CoinpayExactness
import XChainSdk.Protocol.Compression
import XChainSdk.Protocol.Formats
import XChainSdk.Protocol.MintTicks
import XChainSdk.Protocol.NumberFields
import XChainSdk.Wallet.DerSignature
import XChainSdk.Wallet.MultisigScope
import XChainSdk.WebSocket.CatchUp
import XChainSdk.WebSocket.CatchUpMoves
import XChainSdk.WebSocket.CatchUpSafety
import XChainSdk.WebSocket.Client
import XChainSdk.WebSocket.Reconnect
import XChainSdk.WebSocket.SubscriptionCounts
import XChainSdk.WebSocket.SubscriptionSafety
import XChainSdk.WebSocket.Subscriptions
import XChainSdk.Workflows.ContractDeploy
import XChainSdk.Workflows.CrossChain
import XChainSdk.Workflows.LostBroadcasts
import XChainSdk.X402.Amounts
import XChainSdk.X402.Client
import XChainSdk.X402.DepositLedger
import XChainSdk.X402.DepositSafety
import XChainSdk.X402.Gateway
import XChainSdk.X402.SendReading
import XChainSdk.X402.SingleUse
