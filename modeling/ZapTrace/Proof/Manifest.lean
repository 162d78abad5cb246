import Mathlib.Data.Rat.Defs
import ZapTrace.Proof.Checker
import ZapTrace.Proof.Signoff

/-!
# The manifest of a proof pack

The declared checks, and the records of evidence that the sign-off reads or that say something of a failure, a block or
a human review. Where a record has more than the sign-off needs (paths, hashes, versions), the rest is left out.
-/

namespace ZapTrace.Proof

structure KiCadOracleEvidence where
  check : String
  status : String
  message : String := ""
  skip_reason : String := ""
  approval_id : String := ""
  waiver_reason : String := ""

structure BomProvenanceEvidence where
  blocked : Bool := false
  unresolved_required_parts : ℕ := 0
  obsolete_required_parts : ℕ := 0
  message : String := ""

structure ManufacturingProofEvidence where
  readiness_status : String := "human-review-required"
  blocked : Bool := false
  gerber_smoke_status : String := "unknown"
  excellon_smoke_status : String := "unknown"

structure EngineeringReviewEvidence where
  status : String

inductive ReleaseEvidenceStatus
  | pass | fail | missingEvidence | skipApproved | skipUnapproved | humanReviewRequired
  deriving DecidableEq

structure ReleaseGateProofEvidence where
  status : ReleaseEvidenceStatus
  automated_gate_status : ReleaseEvidenceStatus := .missingEvidence
  fabrication_status : String := "human-review-required"
  engineering_review : Option EngineeringReviewEvidence := none

structure AssumptionsEvidence where
  approved : Bool
  unconfirmed_high_risk_count : ℕ := 0
  message : String := ""

structure SipiRiskEvidence where
  passed : Bool
  high_speed_net_count : ℕ := 0
  decoupling_issue_count : ℕ := 0
  human_review_required : Bool := false
  blocked : Bool := false
  message : String := ""

structure CurrentDensityEvidence where
  passed : Bool
  high_current_net_count : ℕ := 0
  violation_count : ℕ := 0
  missing_route_count : ℕ := 0
  human_review_required : Bool := false
  blocked : Bool := false
  message : String := ""

structure RegulatorMarginEvidence where
  passed : Bool
  regulator_count : ℕ := 0
  failure_count : ℕ := 0
  missing_metadata_count : ℕ := 0
  human_review_required : Bool := false
  blocked : Bool := false
  message : String := ""

structure RailCurrentBudgetEvidence where
  passed : Bool
  rail_count : ℕ := 0
  failure_count : ℕ := 0
  missing_metadata_count : ℕ := 0
  human_review_required : Bool := false
  blocked : Bool := false
  message : String := ""

structure RepairProposalEvidence where
  passed : Bool
  proposal_count : ℕ := 0
  verified_count : ℕ := 0
  silent_repair_count : ℕ := 0
  human_review_required : Bool := false
  blocked : Bool := false
  message : String := ""

structure VerifyRepairProofEvidence where
  converged : Bool
  stop_reason : String
  blocking_gate_count : ℕ := 0
  human_review_required : Bool := false
  blocks_autonomous_release : Bool := true
  message : String := ""

structure SimulationSignoffProofEvidence where
  fail_count : ℕ := 0
  human_review_count : ℕ := 0
  blocked : Bool
  human_review_required : Bool
  message : String := ""

structure ImpedanceReturnPathEvidence where
  passed : Bool
  assumption_count : ℕ := 0
  diagnostic_count : ℕ := 0
  human_review_required : Bool := false
  blocked : Bool := false
  message : String := ""

structure DiffPairLengthEvidence where
  passed : Bool
  violation_count : ℕ := 0
  missing_route_count : ℕ := 0
  message : String := ""

structure PlacementScorecardEvidence where
  passed : Bool
  overall_score : ℚ := 0
  warning_count : ℕ := 0
  blocking_observation_count : ℕ := 0
  human_review_required : Bool := false
  message : String := ""

structure LayoutQualityEvidence where
  passed : Bool
  overall_score : ℚ := 0
  blocking_count : ℕ := 0
  human_review_count : ℕ := 0
  human_review_required : Bool := false
  blocked : Bool := false
  message : String := ""

structure FootprintProofEvidence where
  passed : Bool
  error_count : ℕ := 0
  message : String := ""

structure DatasheetProvenanceEvidence where
  low_confidence_count : ℕ := 0
  conflict_count : ℕ := 0
  stale_fact_count : ℕ := 0
  human_review_required : Bool := false
  blocked : Bool := false
  message : String := ""

structure DeratingEvidence where
  passed : Bool
  blocking_finding_count : ℕ := 0
  message : String := ""

structure ComponentMetadataEvidence where
  valid : Bool
  critical_issue_count : ℕ := 0
  blocked_component_count : ℕ := 0
  human_review_required_count : ℕ := 0
  message : String := ""

structure ArchitectureProofEvidence where
  status : String
  conflict_count : ℕ := 0
  untraced_element_count : ℕ := 0
  uncovered_requirement_count : ℕ := 0
  blocked : Bool
  human_review_required : Bool
  message : String := ""

structure ComponentSelectionRecord where
  blocked : Bool := false
  human_review_required : Bool := false

structure ComponentSelectionProofEvidence where
  requirement_count : ℕ := 0
  selected_count : ℕ := 0
  blocked_count : ℕ := 0
  human_review_required_count : ℕ := 0
  selections : List ComponentSelectionRecord := []
  message : String := ""

structure NetlistParityEvidence where
  check : String := "ir_to_kicad_schematic_netlist"
  passed : Bool
  missing_net_count : ℕ := 0
  extra_net_count : ℕ := 0
  pin_mismatch_count : ℕ := 0
  message : String := ""

structure RequirementsCoverageEvidence where
  fully_covered : Bool
  fully_traced : Bool
  untraced_artifact_count : ℕ := 0
  message : String := ""

structure ManufacturingExportEvidence where
  blocked : Bool := false

structure CheckRecord where
  name : String
  status : String

structure ProofManifest (K : Type) where
  checks : List (CheckDefinition K) := []
  check_records : List CheckRecord := []
  kicad_oracle : List KiCadOracleEvidence := []
  requires_kicad_oracle : Bool := false
  bom_provenance : List BomProvenanceEvidence := []
  manufacturing_evidence : List ManufacturingProofEvidence := []
  release_evidence : Option ReleaseGateProofEvidence := none
  engineering_review : Option EngineeringReviewEvidence := none
  manufacturing_exports : List ManufacturingExportEvidence := []
  kicad_schematic_parity : Option NetlistParityEvidence := none
  kicad_pcb_parity : Option NetlistParityEvidence := none
  ipc_d356_parity : Option NetlistParityEvidence := none
  component_metadata : Option ComponentMetadataEvidence := none
  architecture_evidence : Option ArchitectureProofEvidence := none
  component_selection : Option ComponentSelectionProofEvidence := none
  derating_evidence : Option DeratingEvidence := none
  datasheet_provenance : Option DatasheetProvenanceEvidence := none
  footprint_proof : Option FootprintProofEvidence := none
  placement_scorecard : Option PlacementScorecardEvidence := none
  layout_quality : Option LayoutQualityEvidence := none
  diffpair_length : Option DiffPairLengthEvidence := none
  impedance_return_path : Option ImpedanceReturnPathEvidence := none
  repair_proposals : Option RepairProposalEvidence := none
  verify_repair : Option VerifyRepairProofEvidence := none
  simulation_signoff : Option SimulationSignoffProofEvidence := none
  rail_current_budget : Option RailCurrentBudgetEvidence := none
  regulator_margin : Option RegulatorMarginEvidence := none
  current_density : Option CurrentDensityEvidence := none
  sipi_risk : Option SipiRiskEvidence := none
  requirements_coverage : Option RequirementsCoverageEvidence := none
  assumptions_evidence : Option AssumptionsEvidence := none
  autonomous_signoff : AutonomousSignoffDecision := evaluate []

end ZapTrace.Proof
