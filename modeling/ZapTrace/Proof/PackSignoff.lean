import ZapTrace.Proof.Pack

/-!
# What an autonomous pass stands for

An autonomous pass should mean that every declared check that can block has passed, and that no record of the manifest
tells of a failure, of a block or of a human review. The mappings look at the results that are there, and at one or two
fields of the records they know.

## Main results

* `updateAutonomousSignoff_pass_iff`: when a pack gets an autonomous pass
* `sound_iff`: a pack is sound exactly when nothing is wrong with what is not looked at, or it does not pass
-/

namespace ZapTrace.Proof

open SignoffEvidence List

variable {K D : Type} (text : SignoffText)

/-! ## Clean evidence -/

theorem gate_clean_iff (name : String) (passed : Bool) (summary source : String) :
    (gate name passed summary source).Clean ↔ passed = true := by
  cases passed <;>
    simp [gate, SignoffEvidence.Clean, blocks, isReleaseBlockingFailure,
      isMissingRequiredEvidence, requiresHumanReview]

theorem reviewed_clean_iff (name : String) (passed human_review_required blocked : Bool) (summary : String) :
    (reviewed name passed human_review_required blocked summary).Clean ↔
      passed = true ∧ human_review_required = false := by
  cases human_review_required <;> cases passed <;>
    simp [reviewed, SignoffEvidence.Clean, blocks, isReleaseBlockingFailure,
      isMissingRequiredEvidence, requiresHumanReview]

theorem resultEvidence_clean_iff (result : CheckResult K D) : (resultEvidence result).Clean ↔ result.status = .pass := by
  obtain ⟨⟨name, type, severity, params, expected⟩, status, message, details⟩ := result
  cases severity <;> cases status <;>
    simp [resultEvidence, SignoffEvidence.Clean, blocks, isReleaseBlockingFailure,
      isMissingRequiredEvidence, requiresHumanReview, severityNeedsReview]

theorem oracleEvidence_clean_iff (oracle : KiCadOracleEvidence) :
    (oracleEvidence text oracle).Clean ↔ oracleStatus text oracle = .pass := by
  cases h : oracleStatus text oracle <;>
    simp [oracleEvidence, SignoffEvidence.Clean, blocks, isReleaseBlockingFailure,
      isMissingRequiredEvidence, requiresHumanReview, h]

/-! ## When a pack passes -/

/-- The status of an oracle is a pass, or a waiver that was approved with a reason. -/
def KiCadOracleEvidence.Accepted (oracle : KiCadOracleEvidence) : Prop :=
  text.lower (pyStrip oracle.status) ∈ ["pass", "passed", "success"] ∨
    text.lower (pyStrip oracle.status) = "waived" ∧ oracle.approval_id ≠ "" ∧ oracle.waiver_reason ≠ ""

theorem oracleStatus_pass_iff (oracle : KiCadOracleEvidence) :
    oracleStatus text oracle = .pass ↔ oracle.Accepted text := by
  unfold oracleStatus KiCadOracleEvidence.Accepted
  by_cases hpass : text.lower (pyStrip oracle.status) ∈ ["pass", "passed", "success"]
  · simp [hpass]
  · by_cases hwaived : text.lower (pyStrip oracle.status) = "waived"
    · simp [hwaived]
    · simp only [hpass, hwaived, if_false, false_and, or_false, iff_false]
      split_ifs <;> simp

/-- There is something to look at: a result, a record that is mapped, or an oracle that is required. -/
def Consulted (pack : ProofPack K D) : Prop :=
  let m := pack.manifest
  pack.results ≠ [] ∨ m.requires_kicad_oracle = true ∨ m.kicad_oracle ≠ [] ∨ m.kicad_schematic_parity.isSome ∨
    m.kicad_pcb_parity.isSome ∨ m.ipc_d356_parity.isSome ∨ m.component_metadata.isSome ∨ m.component_selection.isSome ∨
    m.architecture_evidence.isSome ∨ m.derating_evidence.isSome ∨ m.datasheet_provenance.isSome ∨
    m.footprint_proof.isSome ∨ m.placement_scorecard.isSome ∨ m.layout_quality.isSome ∨ m.diffpair_length.isSome ∨
    m.impedance_return_path.isSome ∨ m.repair_proposals.isSome ∨ m.verify_repair.isSome ∨ m.simulation_signoff.isSome ∨
    m.rail_current_budget.isSome ∨ m.regulator_margin.isSome ∨ m.current_density.isSome ∨ m.sipi_risk.isSome ∨
    m.bom_provenance ≠ [] ∨ m.requirements_coverage.isSome ∨ m.assumptions_evidence.isSome

/-- What the mappings look at is as it has to be. -/
@[mk_iff]
structure Passes (pack : ProofPack K D) : Prop where
  consulted : Consulted pack
  results : ∀ result ∈ pack.results, result.status = .pass
  required_oracle : pack.manifest.requires_kicad_oracle = true → pack.manifest.kicad_oracle ≠ []
  oracles : ∀ oracle ∈ pack.manifest.kicad_oracle, oracle.Accepted text
  schematic_parity : ∀ r ∈ pack.manifest.kicad_schematic_parity, r.passed = true
  pcb_parity : ∀ r ∈ pack.manifest.kicad_pcb_parity, r.passed = true
  ipc_d356_parity : ∀ r ∈ pack.manifest.ipc_d356_parity, r.passed = true
  component_metadata : ∀ r ∈ pack.manifest.component_metadata, r.valid = true ∧ r.blocked_component_count = 0
  component_selection : ∀ r ∈ pack.manifest.component_selection, r.blocked_count = 0 ∧ r.human_review_required_count = 0
  architecture : ∀ r ∈ pack.manifest.architecture_evidence, r.blocked = false ∧ r.human_review_required = false
  derating : ∀ r ∈ pack.manifest.derating_evidence, r.passed = true
  datasheet_provenance : ∀ r ∈ pack.manifest.datasheet_provenance, r.blocked = false ∧ r.human_review_required = false
  footprint_proof : ∀ r ∈ pack.manifest.footprint_proof, r.passed = true
  placement_scorecard : ∀ r ∈ pack.manifest.placement_scorecard, r.passed = true ∧ r.human_review_required = false
  layout_quality : ∀ r ∈ pack.manifest.layout_quality, r.passed = true ∧ r.human_review_required = false
  diffpair_length : ∀ r ∈ pack.manifest.diffpair_length, r.passed = true
  impedance_return_path : ∀ r ∈ pack.manifest.impedance_return_path, r.passed = true ∧ r.human_review_required = false
  repair_proposals : ∀ r ∈ pack.manifest.repair_proposals, r.passed = true ∧ r.human_review_required = false
  verify_repair : ∀ r ∈ pack.manifest.verify_repair, r.converged = true ∧ r.human_review_required = false
  simulation_signoff : ∀ r ∈ pack.manifest.simulation_signoff, r.blocked = false ∧ r.human_review_required = false
  rail_current_budget : ∀ r ∈ pack.manifest.rail_current_budget, r.passed = true ∧ r.human_review_required = false
  regulator_margin : ∀ r ∈ pack.manifest.regulator_margin, r.passed = true ∧ r.human_review_required = false
  current_density : ∀ r ∈ pack.manifest.current_density, r.passed = true ∧ r.human_review_required = false
  sipi_risk : ∀ r ∈ pack.manifest.sipi_risk, r.passed = true ∧ r.human_review_required = false
  bom_provenance : ∀ r ∈ pack.manifest.bom_provenance, r.blocked = false
  requirements_coverage : ∀ r ∈ pack.manifest.requirements_coverage, r.fully_covered = true ∧ r.fully_traced = true
  assumptions : ∀ r ∈ pack.manifest.assumptions_evidence, r.unconfirmed_high_risk_count = 0

theorem forall_gate_iff {ρ : Type} (r? : Option ρ) (name : String) (passed : ρ → Bool) (summary : ρ → String)
    (source : String) :
    (∀ item ∈ r?.toList.map fun r => gate name (passed r) (summary r) source, item.Clean) ↔
      ∀ r ∈ r?, passed r = true := by
  simp [gate_clean_iff]

theorem forall_reviewed_iff {ρ : Type} (r? : Option ρ) (name : String) (passed review blocked : ρ → Bool)
    (summary : ρ → String) :
    (∀ item ∈ r?.toList.map fun r => reviewed name (passed r) (review r) (blocked r) (summary r), item.Clean) ↔
      ∀ r ∈ r?, passed r = true ∧ review r = false := by
  simp [reviewed_clean_iff]

variable {text}

theorem oracles_clean_iff (manifest : ProofManifest K) :
    (∀ item ∈ signoffEvidenceFromOracles text manifest, item.Clean) ↔
      (manifest.requires_kicad_oracle = true → manifest.kicad_oracle ≠ []) ∧
        ∀ oracle ∈ manifest.kicad_oracle, oracle.Accepted text := by
  unfold signoffEvidenceFromOracles
  split
  · rename_i hmissing
    refine iff_of_false (fun h => ?_) fun h => h.1 hmissing.1 hmissing.2
    have hclean := h _ (mem_singleton_self _)
    exact absurd hclean.2.2.1 (by decide)
  · rename_i hthere
    rw [and_iff_right fun hrequired hnil => hthere ⟨hrequired, hnil⟩, forall_mem_map]
    exact forall₂_congr fun oracle _ => (oracleEvidence_clean_iff text oracle).trans (oracleStatus_pass_iff text oracle)

theorem parity_clean_iff (manifest : ProofManifest K) :
    (∀ item ∈ signoffEvidenceFromNetlistParity manifest, item.Clean) ↔
      (∀ r ∈ manifest.kicad_schematic_parity, r.passed = true) ∧ (∀ r ∈ manifest.kicad_pcb_parity, r.passed = true) ∧
        ∀ r ∈ manifest.ipc_d356_parity, r.passed = true := by
  simp [signoffEvidenceFromNetlistParity, or_imp, forall_and, gate_clean_iff]

theorem verifyRepair_clean_iff (manifest : ProofManifest K) :
    (∀ item ∈ signoffEvidenceFromVerifyRepair manifest, item.Clean) ↔
      ∀ r ∈ manifest.verify_repair, r.converged = true ∧ r.human_review_required = false := by
  cases h : manifest.verify_repair with
  | none => simp [signoffEvidenceFromVerifyRepair, h]
  | some r =>
    cases hreview : r.human_review_required with
    | false => simp [signoffEvidenceFromVerifyRepair, h, hreview, gate_clean_iff]
    | true =>
      simp [signoffEvidenceFromVerifyRepair, h, hreview, SignoffEvidence.Clean, requiresHumanReview]

theorem oracles_eq_nil_iff (manifest : ProofManifest K) :
    signoffEvidenceFromOracles text manifest = [] ↔
      manifest.requires_kicad_oracle = false ∧ manifest.kicad_oracle = [] := by
  unfold signoffEvidenceFromOracles
  split
  · rename_i hmissing
    exact iff_of_false (cons_ne_nil _ _) fun h => absurd hmissing.1 (by rw [h.1]; decide)
  · rename_i hthere
    rw [map_eq_nil_iff]
    refine ⟨fun hnil => ⟨?_, hnil⟩, And.right⟩
    exact Bool.not_eq_true _ ▸ fun hrequired => hthere ⟨hrequired, hnil⟩

theorem signoffEvidence_ne_nil_iff (pack : ProofPack K D) : signoffEvidence text pack ≠ [] ↔ Consulted pack := by
  rw [← not_iff_not, not_ne_iff]
  simp only [signoffEvidence, flatten_eq_nil_iff, forall_mem_cons, oracles_eq_nil_iff, Consulted, not_or]
  simp [signoffEvidenceFromResults, signoffEvidenceFromNetlistParity, signoffEvidenceFromComponentMetadata,
    signoffEvidenceFromComponentSelection, signoffEvidenceFromArchitecture, signoffEvidenceFromDerating,
    signoffEvidenceFromDatasheetProvenance, signoffEvidenceFromFootprintProof, signoffEvidenceFromPlacementScorecard,
    signoffEvidenceFromLayoutQuality, signoffEvidenceFromDiffpairLength, signoffEvidenceFromImpedanceReturnPath,
    signoffEvidenceFromRepairProposals, signoffEvidenceFromVerifyRepair, signoffEvidenceFromSimulationSignoff,
    signoffEvidenceFromRailCurrentBudget, signoffEvidenceFromRegulatorMargin, signoffEvidenceFromCurrentDensity,
    signoffEvidenceFromSipiRisk, signoffEvidenceFromBomProvenance, signoffEvidenceFromRequirementsCoverage,
    signoffEvidenceFromAssumptions]
  have hverify : (∀ r, ¬ pack.manifest.verify_repair = some r) ↔ pack.manifest.verify_repair = none :=
    Option.eq_none_iff_forall_ne_some.symm
  rw [hverify]
  simp only [and_assoc, implies_true]

theorem updateAutonomousSignoff_pass_iff (pack : ProofPack K D) :
    (pack.updateAutonomousSignoff text).manifest.autonomous_signoff.status = .autonomousPass ↔ Passes text pack := by
  have hflatten : ∀ parts : List (List SignoffEvidence), (∀ item ∈ parts.flatten, item.Clean) ↔
      ∀ part ∈ parts, ∀ item ∈ part, item.Clean := by
    intro parts
    simp only [mem_flatten, forall_exists_index, and_imp]
    exact ⟨fun h part hpart item hitem => h item part hpart hitem,
      fun h item part hpart hitem => h part hpart item hitem⟩
  have hresults : (∀ item ∈ signoffEvidenceFromResults pack.results, item.Clean) ↔
      ∀ result ∈ pack.results, result.status = .pass := by
    simp [signoffEvidenceFromResults, resultEvidence_clean_iff]
  have hbom : (∀ item ∈ signoffEvidenceFromBomProvenance pack.manifest, item.Clean) ↔
      ∀ r ∈ pack.manifest.bom_provenance, r.blocked = false := by
    simp [signoffEvidenceFromBomProvenance, gate_clean_iff]
  show (evaluate (signoffEvidence text pack)).status = .autonomousPass ↔ _
  rw [evaluate_pass_iff, signoffEvidence_ne_nil_iff, signoffEvidence, hflatten]
  simp only [forall_mem_cons, hresults, oracles_clean_iff, parity_clean_iff, verifyRepair_clean_iff, hbom,
    signoffEvidenceFromComponentMetadata, signoffEvidenceFromComponentSelection, signoffEvidenceFromArchitecture,
    signoffEvidenceFromDerating, signoffEvidenceFromDatasheetProvenance, signoffEvidenceFromFootprintProof,
    signoffEvidenceFromPlacementScorecard, signoffEvidenceFromLayoutQuality, signoffEvidenceFromDiffpairLength,
    signoffEvidenceFromImpedanceReturnPath, signoffEvidenceFromRepairProposals, signoffEvidenceFromSimulationSignoff,
    signoffEvidenceFromRailCurrentBudget, signoffEvidenceFromRegulatorMargin, signoffEvidenceFromCurrentDensity,
    signoffEvidenceFromSipiRisk, signoffEvidenceFromRequirementsCoverage, signoffEvidenceFromAssumptions,
    forall_gate_iff, forall_reviewed_iff, Bool.and_eq_true, beq_iff_eq, bne_eq_false_iff_eq, Bool.not_eq_true']
  rw [passes_iff]
  simp only [and_assoc, not_mem_nil, IsEmpty.forall_iff, implies_true, and_true]

/-! ## What a pass should stand for

A record tells of nothing when its flags say that it passed, that it is not blocked and that no review is required, and
when it counts no failures, no blocks and no reviews. -/

def CheckRecord.Quiet (r : CheckRecord) : Prop := r.status ≠ "fail" ∧ r.status ≠ "error"

def ManufacturingProofEvidence.Quiet (r : ManufacturingProofEvidence) : Prop :=
  r.blocked = false ∧ r.readiness_status ∉ ["hard-fail", "human-review-required"] ∧
    r.gerber_smoke_status ∉ ["fail", "human-review-required"] ∧
    r.excellon_smoke_status ∉ ["fail", "human-review-required"]

def ManufacturingExportEvidence.Quiet (r : ManufacturingExportEvidence) : Prop := r.blocked = false

def EngineeringReviewEvidence.Quiet (r : EngineeringReviewEvidence) : Prop :=
  r.status ∉ ["human-review-required", "rejected"]

def ReleaseEvidenceStatus.Quiet (status : ReleaseEvidenceStatus) : Prop := status = .pass ∨ status = .skipApproved

def ReleaseGateProofEvidence.Quiet (r : ReleaseGateProofEvidence) : Prop :=
  r.status.Quiet ∧ r.automated_gate_status.Quiet ∧ r.fabrication_status ∉ ["human-review-required", "rejected"] ∧
    ∀ review ∈ r.engineering_review, review.Quiet

def NetlistParityEvidence.Quiet (r : NetlistParityEvidence) : Prop :=
  r.passed = true ∧ r.missing_net_count = 0 ∧ r.extra_net_count = 0 ∧ r.pin_mismatch_count = 0

def ComponentMetadataEvidence.Quiet (r : ComponentMetadataEvidence) : Prop :=
  (r.valid = true ∧ r.blocked_component_count = 0) ∧ r.critical_issue_count = 0 ∧ r.human_review_required_count = 0

def ComponentSelectionProofEvidence.Quiet (r : ComponentSelectionProofEvidence) : Prop :=
  (r.blocked_count = 0 ∧ r.human_review_required_count = 0) ∧
    ∀ selection ∈ r.selections, selection.blocked = false ∧ selection.human_review_required = false

def ArchitectureProofEvidence.Quiet (r : ArchitectureProofEvidence) : Prop :=
  r.blocked = false ∧ r.human_review_required = false

def DeratingEvidence.Quiet (r : DeratingEvidence) : Prop := r.passed = true ∧ r.blocking_finding_count = 0

def DatasheetProvenanceEvidence.Quiet (r : DatasheetProvenanceEvidence) : Prop :=
  r.blocked = false ∧ r.human_review_required = false

def FootprintProofEvidence.Quiet (r : FootprintProofEvidence) : Prop := r.passed = true ∧ r.error_count = 0

def PlacementScorecardEvidence.Quiet (r : PlacementScorecardEvidence) : Prop :=
  (r.passed = true ∧ r.human_review_required = false) ∧ r.blocking_observation_count = 0

def LayoutQualityEvidence.Quiet (r : LayoutQualityEvidence) : Prop :=
  (r.passed = true ∧ r.human_review_required = false) ∧ r.blocked = false ∧ r.blocking_count = 0 ∧
    r.human_review_count = 0

def DiffPairLengthEvidence.Quiet (r : DiffPairLengthEvidence) : Prop := r.passed = true ∧ r.violation_count = 0

def ImpedanceReturnPathEvidence.Quiet (r : ImpedanceReturnPathEvidence) : Prop :=
  (r.passed = true ∧ r.human_review_required = false) ∧ r.blocked = false

def RepairProposalEvidence.Quiet (r : RepairProposalEvidence) : Prop :=
  (r.passed = true ∧ r.human_review_required = false) ∧ r.blocked = false

def VerifyRepairProofEvidence.Quiet (r : VerifyRepairProofEvidence) : Prop :=
  (r.converged = true ∧ r.human_review_required = false) ∧ r.blocks_autonomous_release = false ∧
    r.blocking_gate_count = 0

def SimulationSignoffProofEvidence.Quiet (r : SimulationSignoffProofEvidence) : Prop :=
  (r.blocked = false ∧ r.human_review_required = false) ∧ r.fail_count = 0 ∧ r.human_review_count = 0

def RailCurrentBudgetEvidence.Quiet (r : RailCurrentBudgetEvidence) : Prop :=
  (r.passed = true ∧ r.human_review_required = false) ∧ r.blocked = false ∧ r.failure_count = 0

def RegulatorMarginEvidence.Quiet (r : RegulatorMarginEvidence) : Prop :=
  (r.passed = true ∧ r.human_review_required = false) ∧ r.blocked = false ∧ r.failure_count = 0

def CurrentDensityEvidence.Quiet (r : CurrentDensityEvidence) : Prop :=
  (r.passed = true ∧ r.human_review_required = false) ∧ r.blocked = false ∧ r.violation_count = 0

def SipiRiskEvidence.Quiet (r : SipiRiskEvidence) : Prop :=
  (r.passed = true ∧ r.human_review_required = false) ∧ r.blocked = false

def BomProvenanceEvidence.Quiet (r : BomProvenanceEvidence) : Prop := r.blocked = false

def RequirementsCoverageEvidence.Quiet (r : RequirementsCoverageEvidence) : Prop :=
  r.fully_covered = true ∧ r.fully_traced = true

def AssumptionsEvidence.Quiet (r : AssumptionsEvidence) : Prop := r.unconfirmed_high_risk_count = 0 ∧ r.approved = true

variable (text)

/-- No record of the manifest tells of a failure, of a block or of a human review. -/
structure Quiet (m : ProofManifest K) : Prop where
  check_records : ∀ r ∈ m.check_records, r.Quiet
  oracles : ∀ oracle ∈ m.kicad_oracle, oracle.Accepted text
  bom_provenance : ∀ r ∈ m.bom_provenance, r.Quiet
  manufacturing_evidence : ∀ r ∈ m.manufacturing_evidence, r.Quiet
  release_evidence : ∀ r ∈ m.release_evidence, r.Quiet
  engineering_review : ∀ r ∈ m.engineering_review, r.Quiet
  manufacturing_exports : ∀ r ∈ m.manufacturing_exports, r.Quiet
  schematic_parity : ∀ r ∈ m.kicad_schematic_parity, r.Quiet
  pcb_parity : ∀ r ∈ m.kicad_pcb_parity, r.Quiet
  ipc_d356_parity : ∀ r ∈ m.ipc_d356_parity, r.Quiet
  component_metadata : ∀ r ∈ m.component_metadata, r.Quiet
  architecture : ∀ r ∈ m.architecture_evidence, r.Quiet
  component_selection : ∀ r ∈ m.component_selection, r.Quiet
  derating : ∀ r ∈ m.derating_evidence, r.Quiet
  datasheet_provenance : ∀ r ∈ m.datasheet_provenance, r.Quiet
  footprint_proof : ∀ r ∈ m.footprint_proof, r.Quiet
  placement_scorecard : ∀ r ∈ m.placement_scorecard, r.Quiet
  layout_quality : ∀ r ∈ m.layout_quality, r.Quiet
  diffpair_length : ∀ r ∈ m.diffpair_length, r.Quiet
  impedance_return_path : ∀ r ∈ m.impedance_return_path, r.Quiet
  repair_proposals : ∀ r ∈ m.repair_proposals, r.Quiet
  verify_repair : ∀ r ∈ m.verify_repair, r.Quiet
  simulation_signoff : ∀ r ∈ m.simulation_signoff, r.Quiet
  rail_current_budget : ∀ r ∈ m.rail_current_budget, r.Quiet
  regulator_margin : ∀ r ∈ m.regulator_margin, r.Quiet
  current_density : ∀ r ∈ m.current_density, r.Quiet
  sipi_risk : ∀ r ∈ m.sipi_risk, r.Quiet
  requirements_coverage : ∀ r ∈ m.requirements_coverage, r.Quiet
  assumptions : ∀ r ∈ m.assumptions_evidence, r.Quiet

/-- A check of this severity can block a release. -/
def Severe (severity : CheckSeverity) : Prop := severity = .critical ∨ severity = .error

/-- Every declared check that can block has a result that passed. -/
def DeclaredChecksPass (pack : ProofPack K D) : Prop :=
  ∀ check ∈ pack.manifest.checks, Severe check.severity →
    ∃ result ∈ pack.results, result.check.name = check.name ∧ result.status = .pass

/-- An autonomous pass stands for what it should. -/
def Sound (pack : ProofPack K D) : Prop :=
  (pack.updateAutonomousSignoff text).manifest.autonomous_signoff.status = .autonomousPass →
    DeclaredChecksPass pack ∧ Quiet text pack.manifest

/-! ## What is not looked at -/

/-- Nothing is wrong with what the mappings do not look at. -/
structure Unseen (pack : ProofPack K D) : Prop where
  /-- Every declared check that can block has a result. -/
  checks : ∀ check ∈ pack.manifest.checks, Severe check.severity →
    ∃ result ∈ pack.results, result.check.name = check.name
  /-- Kinds of records without a mapping. -/
  check_records : ∀ r ∈ pack.manifest.check_records, r.Quiet
  manufacturing_evidence : ∀ r ∈ pack.manifest.manufacturing_evidence, r.Quiet
  release_evidence : ∀ r ∈ pack.manifest.release_evidence, r.Quiet
  engineering_review : ∀ r ∈ pack.manifest.engineering_review, r.Quiet
  manufacturing_exports : ∀ r ∈ pack.manifest.manufacturing_exports, r.Quiet
  /-- Fields that the mapping of the record does not read, or reads for the summary only. -/
  schematic_parity : ∀ r ∈ pack.manifest.kicad_schematic_parity,
    r.missing_net_count = 0 ∧ r.extra_net_count = 0 ∧ r.pin_mismatch_count = 0
  pcb_parity : ∀ r ∈ pack.manifest.kicad_pcb_parity,
    r.missing_net_count = 0 ∧ r.extra_net_count = 0 ∧ r.pin_mismatch_count = 0
  ipc_d356_parity : ∀ r ∈ pack.manifest.ipc_d356_parity,
    r.missing_net_count = 0 ∧ r.extra_net_count = 0 ∧ r.pin_mismatch_count = 0
  component_metadata : ∀ r ∈ pack.manifest.component_metadata,
    r.critical_issue_count = 0 ∧ r.human_review_required_count = 0
  component_selection : ∀ r ∈ pack.manifest.component_selection, ∀ selection ∈ r.selections,
    selection.blocked = false ∧ selection.human_review_required = false
  derating : ∀ r ∈ pack.manifest.derating_evidence, r.blocking_finding_count = 0
  footprint_proof : ∀ r ∈ pack.manifest.footprint_proof, r.error_count = 0
  placement_scorecard : ∀ r ∈ pack.manifest.placement_scorecard, r.blocking_observation_count = 0
  layout_quality : ∀ r ∈ pack.manifest.layout_quality,
    r.blocked = false ∧ r.blocking_count = 0 ∧ r.human_review_count = 0
  diffpair_length : ∀ r ∈ pack.manifest.diffpair_length, r.violation_count = 0
  impedance_return_path : ∀ r ∈ pack.manifest.impedance_return_path, r.blocked = false
  repair_proposals : ∀ r ∈ pack.manifest.repair_proposals, r.blocked = false
  verify_repair : ∀ r ∈ pack.manifest.verify_repair, r.blocks_autonomous_release = false ∧ r.blocking_gate_count = 0
  simulation_signoff : ∀ r ∈ pack.manifest.simulation_signoff, r.fail_count = 0 ∧ r.human_review_count = 0
  rail_current_budget : ∀ r ∈ pack.manifest.rail_current_budget, r.blocked = false ∧ r.failure_count = 0
  regulator_margin : ∀ r ∈ pack.manifest.regulator_margin, r.blocked = false ∧ r.failure_count = 0
  current_density : ∀ r ∈ pack.manifest.current_density, r.blocked = false ∧ r.violation_count = 0
  sipi_risk : ∀ r ∈ pack.manifest.sipi_risk, r.blocked = false
  assumptions : ∀ r ∈ pack.manifest.assumptions_evidence, r.approved = true

variable {text}

/-- A quiet pack: also what the mappings do not look at is as it should be. -/
theorem Quiet.unseen {pack : ProofPack K D} (hq : Quiet text pack.manifest) (hd : DeclaredChecksPass pack) :
    Unseen pack where
  checks check hcheck hsevere := by
    obtain ⟨result, hresult, hname, -⟩ := hd check hcheck hsevere
    exact ⟨result, hresult, hname⟩
  check_records := hq.check_records
  manufacturing_evidence := hq.manufacturing_evidence
  release_evidence := hq.release_evidence
  engineering_review := hq.engineering_review
  manufacturing_exports := hq.manufacturing_exports
  schematic_parity r hr := (hq.schematic_parity r hr).2
  pcb_parity r hr := (hq.pcb_parity r hr).2
  ipc_d356_parity r hr := (hq.ipc_d356_parity r hr).2
  component_metadata r hr := (hq.component_metadata r hr).2
  component_selection r hr := (hq.component_selection r hr).2
  derating r hr := (hq.derating r hr).2
  footprint_proof r hr := (hq.footprint_proof r hr).2
  placement_scorecard r hr := (hq.placement_scorecard r hr).2
  layout_quality r hr := (hq.layout_quality r hr).2
  diffpair_length r hr := (hq.diffpair_length r hr).2
  impedance_return_path r hr := (hq.impedance_return_path r hr).2
  repair_proposals r hr := (hq.repair_proposals r hr).2
  verify_repair r hr := (hq.verify_repair r hr).2
  simulation_signoff r hr := (hq.simulation_signoff r hr).2
  rail_current_budget r hr := (hq.rail_current_budget r hr).2
  regulator_margin r hr := (hq.regulator_margin r hr).2
  current_density r hr := (hq.current_density r hr).2
  sipi_risk r hr := (hq.sipi_risk r hr).2
  assumptions r hr := (hq.assumptions r hr).2

/-- What the mappings look at and what they do not look at are all that a record tells of. -/
theorem Passes.quiet {pack : ProofPack K D} (hp : Passes text pack) (hu : Unseen pack) :
    Quiet text pack.manifest where
  check_records := hu.check_records
  oracles := hp.oracles
  bom_provenance := hp.bom_provenance
  manufacturing_evidence := hu.manufacturing_evidence
  release_evidence := hu.release_evidence
  engineering_review := hu.engineering_review
  manufacturing_exports := hu.manufacturing_exports
  schematic_parity r hr := ⟨hp.schematic_parity r hr, hu.schematic_parity r hr⟩
  pcb_parity r hr := ⟨hp.pcb_parity r hr, hu.pcb_parity r hr⟩
  ipc_d356_parity r hr := ⟨hp.ipc_d356_parity r hr, hu.ipc_d356_parity r hr⟩
  component_metadata r hr := ⟨hp.component_metadata r hr, hu.component_metadata r hr⟩
  architecture := hp.architecture
  component_selection r hr := ⟨hp.component_selection r hr, hu.component_selection r hr⟩
  derating r hr := ⟨hp.derating r hr, hu.derating r hr⟩
  datasheet_provenance := hp.datasheet_provenance
  footprint_proof r hr := ⟨hp.footprint_proof r hr, hu.footprint_proof r hr⟩
  placement_scorecard r hr := ⟨hp.placement_scorecard r hr, hu.placement_scorecard r hr⟩
  layout_quality r hr := ⟨hp.layout_quality r hr, hu.layout_quality r hr⟩
  diffpair_length r hr := ⟨hp.diffpair_length r hr, hu.diffpair_length r hr⟩
  impedance_return_path r hr := ⟨hp.impedance_return_path r hr, hu.impedance_return_path r hr⟩
  repair_proposals r hr := ⟨hp.repair_proposals r hr, hu.repair_proposals r hr⟩
  verify_repair r hr := ⟨hp.verify_repair r hr, hu.verify_repair r hr⟩
  simulation_signoff r hr := ⟨hp.simulation_signoff r hr, hu.simulation_signoff r hr⟩
  rail_current_budget r hr := ⟨hp.rail_current_budget r hr, hu.rail_current_budget r hr⟩
  regulator_margin r hr := ⟨hp.regulator_margin r hr, hu.regulator_margin r hr⟩
  current_density r hr := ⟨hp.current_density r hr, hu.current_density r hr⟩
  sipi_risk r hr := ⟨hp.sipi_risk r hr, hu.sipi_risk r hr⟩
  requirements_coverage := hp.requirements_coverage
  assumptions r hr := ⟨hp.assumptions r hr, hu.assumptions r hr⟩

/-- **What an autonomous pass stands for**: a pack is sound exactly when it does not pass, or nothing is wrong with what
the mappings do not look at. -/
theorem sound_iff (text : SignoffText) (pack : ProofPack K D) : Sound text pack ↔ (Passes text pack → Unseen pack) := by
  rw [Sound, updateAutonomousSignoff_pass_iff]
  refine forall_congr' fun hp => ?_
  constructor
  · rintro ⟨hd, hq⟩
    exact hq.unseen hd
  · intro hu
    refine ⟨fun check hcheck hsevere => ?_, hp.quiet hu⟩
    -- a result that is there has passed
    obtain ⟨result, hresult, hname⟩ := hu.checks check hcheck hsevere
    exact ⟨result, hresult, hname, hp.results result hresult⟩

/-- A check that is declared but has no result, and one other result that passed. -/
def undeclaredResult : ProofPack ℚ Unit where
  manifest := { checks := [⟨"drc", "drc", .critical, {}, none⟩] }
  results := [⟨⟨"erc", "erc", .error, {}, none⟩, .pass, "", ()⟩]

/-- The declared check has no result, and the pack passes. -/
theorem not_sound_undeclaredResult : ¬ Sound ⟨id, fun _ => ""⟩ undeclaredResult := by
  intro h
  have hpass : (undeclaredResult.updateAutonomousSignoff ⟨id, fun _ => ""⟩).manifest.autonomous_signoff.status =
      .autonomousPass := by decide
  obtain ⟨result, hresult, hname, -⟩ := (h hpass).1 _ (mem_singleton_self _) (.inl rfl)
  rw [mem_singleton.mp hresult] at hname
  revert hname
  decide

end ZapTrace.Proof
