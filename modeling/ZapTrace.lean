import ZapTrace.Agent.CommitAtomicity
import ZapTrace.Io.SexpErrors
import ZapTrace.Agent.OutputLocks
import ZapTrace.Agent.SnapshotDurability
import ZapTrace.Agent.TransactionSafety
import ZapTrace.Core.Diff
import ZapTrace.Api.ClientAddress
import ZapTrace.Api.SlidingWindow
import ZapTrace.Agent.WorkflowRuns
import ZapTrace.Security.SandboxRuns
import ZapTrace.Algo.GridConnectivity
import ZapTrace.Security.ObjectDelegation
import ZapTrace.Core.SessionDesigns
import ZapTrace.Ee.Clearance
import ZapTrace.Ee.DrilledHoles
import ZapTrace.Algo.PadClearance
import ZapTrace.Agent.Worker
import ZapTrace.Algo.FilletArcs
import ZapTrace.Export.SchematicNets
import ZapTrace.Export.Ipcd356Parity
import ZapTrace.Pipeline.VerifyRepair
import ZapTrace.Pipeline.Convergence
import ZapTrace.Core.ParserLosses
import ZapTrace.Security.Replay
import ZapTrace.Export.PcbIdentities
import ZapTrace.Algo.PourOutline
import ZapTrace.Review.WriteFailures
import ZapTrace.Core.StoreInitializationRuns
import ZapTrace.Eda.EagleRoundTrip
import ZapTrace.Multiboard.PanelLayout
import ZapTrace.Kicad.ConnectivityNets
import ZapTrace.Export.SpiceConnectivity
import ZapTrace.Eda.EasyEdaProRoundTrip
import ZapTrace.Export.DsnFaithful
import ZapTrace.Proof.PackSignoff
import ZapTrace.Proof.CheckOrder
import ZapTrace.Proof.Bundle
import ZapTrace.Eda.EasyEdaStdRoundTrip
import ZapTrace.Algo.GridPlans
import ZapTrace.Algo.RouteMst
import ZapTrace.Agent.CandidateRuns
import ZapTrace.Algo.RipupRuns
import ZapTrace.Algo.SpringBackCheck
import ZapTrace.Algo.AstarOptimal
import ZapTrace.Parts.SelectionRatings
import ZapTrace.Algo.PairPartner
import ZapTrace.Security.ObjectDeletion
import ZapTrace.Algo.BoardSafety
import ZapTrace.Core.ComponentRemoval
import ZapTrace.Erc.PullUps
import ZapTrace.Algo.PathCover
import ZapTrace.Export.SpiceMagnitude
import ZapTrace.Synthesis.Grouping
import ZapTrace.Synthesis.RepairTrail
import ZapTrace.Mcp.OAuthBoundary
