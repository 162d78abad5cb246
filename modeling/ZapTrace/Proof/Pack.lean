import ZapTrace.Library.PyValue
import ZapTrace.Proof.Manifest

/-!
# The sign-off of a proof pack

A pack has a manifest and the results of its checks. The sign-off maps each of them to evidence, one function for each
kind of record, and the policy decides. Which records are looked at, and which of their fields, is fixed by these
functions.
-/

namespace ZapTrace.Proof

/-- What the mappings use of the runtime: `str.lower`, and a number with three digits. -/
structure SignoffText where
  lower : String → String
  fixed3 : ℚ → String

structure ProofPack (K D : Type) where
  manifest : ProofManifest K
  results : List (CheckResult K D) := []

variable {K D : Type}

/-- `text or default` -/
def orText (text default : String) : String := if text = "" then default else text

def withCount (count : ℕ) (note summary : String) : String := if count = 0 then summary else s!"{summary}; {count} {note}"

/-! ## Two shapes of evidence -/

/-- Evidence that passes or fails. -/
def gate (name : String) (passed : Bool) (summary : String) (source : String := "zaptrace") : SignoffEvidence where
  name := name
  status := if passed then .pass else .fail
  source := source
  summary := summary

/-- Evidence that may need a human review: unless it is blocked, that is a warning. -/
def reviewed (name : String) (passed human_review_required blocked : Bool) (summary : String) : SignoffEvidence where
  name := name
  status := if human_review_required && !blocked then .warning else if passed then .pass else .fail
  summary := summary
  human_review_required := human_review_required

/-! ## The mappings -/

def severityNeedsReview (severity : CheckSeverity) : Bool := severity == .warning || severity == .info

def resultEvidence (result : CheckResult K D) : SignoffEvidence :=
  let severity := result.check.severity
  let human_review_required := severityNeedsReview severity && result.status != .pass
  { name := result.check.name
    status :=
      if result.status = .pass then .pass
      else if result.status = .skip then .skipped
      else if human_review_required then .warning else .fail
    summary := result.message
    release_blocking := severity == .critical || severity == .error
    human_review_required := human_review_required }

def signoffEvidenceFromResults (results : List (CheckResult K D)) : List SignoffEvidence := results.map resultEvidence

def signoffEvidenceFromAssumptions (manifest : ProofManifest K) : List SignoffEvidence :=
  manifest.assumptions_evidence.toList.map fun assumptions =>
    gate "requirements-assumptions" (assumptions.unconfirmed_high_risk_count == 0)
      (withCount assumptions.unconfirmed_high_risk_count "unconfirmed high-risk assumption(s)" assumptions.message)

def signoffEvidenceFromNetlistParity (manifest : ProofManifest K) : List SignoffEvidence :=
  [(manifest.kicad_schematic_parity, "kicad"), (manifest.kicad_pcb_parity, "kicad"),
    (manifest.ipc_d356_parity, "manufacturing")].flatMap fun item => item.1.toList.map fun parity =>
      gate s!"{item.2}:{parity.check}" parity.passed parity.message item.2

def signoffEvidenceFromComponentMetadata (manifest : ProofManifest K) : List SignoffEvidence :=
  manifest.component_metadata.toList.map fun metadata =>
    let suffix := if metadata.blocked_component_count = 1 then "component" else "components"
    gate "component-metadata" (metadata.valid && metadata.blocked_component_count == 0)
      (withCount metadata.blocked_component_count s!"release-blocked {suffix}"
        (withCount metadata.critical_issue_count "critical metadata issue(s)" metadata.message))

def signoffEvidenceFromComponentSelection (manifest : ProofManifest K) : List SignoffEvidence :=
  manifest.component_selection.toList.map fun selection =>
    let summary := orText selection.message
      s!"{selection.selected_count}/{selection.requirement_count} component requirement(s) selected"
    reviewed "component-selection" (selection.blocked_count == 0) (selection.human_review_required_count != 0)
      (selection.blocked_count != 0)
      (withCount selection.human_review_required_count "selection(s) require human review"
        (withCount selection.blocked_count "blocked selection(s)" summary))

def signoffEvidenceFromArchitecture (manifest : ProofManifest K) : List SignoffEvidence :=
  manifest.architecture_evidence.toList.map fun architecture =>
    let summary := orText architecture.message s!"architecture status is {architecture.status}"
    reviewed "requirements-architecture" (!architecture.blocked) architecture.human_review_required architecture.blocked
      (withCount architecture.uncovered_requirement_count "uncovered requirement(s)"
        (withCount architecture.untraced_element_count "untraced element(s)"
          (withCount architecture.conflict_count "unresolved conflict(s)" summary)))

def signoffEvidenceFromDerating (manifest : ProofManifest K) : List SignoffEvidence :=
  manifest.derating_evidence.toList.map fun derating =>
    gate "component-derating" derating.passed
      (withCount derating.blocking_finding_count "failed derating finding(s)" derating.message)

def signoffEvidenceFromDatasheetProvenance (manifest : ProofManifest K) : List SignoffEvidence :=
  manifest.datasheet_provenance.toList.map fun provenance =>
    reviewed "datasheet-provenance" (!provenance.blocked) provenance.human_review_required provenance.blocked
      (withCount provenance.low_confidence_count "low-confidence fact(s)"
        (withCount provenance.stale_fact_count "stale datasheet fact(s)"
          (withCount provenance.conflict_count "conflicting datasheet fact group(s)" provenance.message)))

def signoffEvidenceFromFootprintProof (manifest : ProofManifest K) : List SignoffEvidence :=
  manifest.footprint_proof.toList.map fun proof =>
    gate "footprint-proof" proof.passed (withCount proof.error_count "footprint proof error(s)" proof.message)

/-- A scorecard that did not pass is not a warning. -/
def signoffEvidenceFromPlacementScorecard (text : SignoffText) (manifest : ProofManifest K) : List SignoffEvidence :=
  manifest.placement_scorecard.toList.map fun scorecard =>
    let summary := orText scorecard.message s!"placement score {text.fixed3 scorecard.overall_score}"
    reviewed "placement-scorecard" scorecard.passed scorecard.human_review_required (!scorecard.passed)
      (withCount scorecard.warning_count "placement warning(s)" summary)

def signoffEvidenceFromLayoutQuality (text : SignoffText) (manifest : ProofManifest K) : List SignoffEvidence :=
  manifest.layout_quality.toList.map fun layout =>
    let summary := orText layout.message s!"layout-quality score {text.fixed3 layout.overall_score}"
    reviewed "layout-quality" layout.passed layout.human_review_required layout.blocked
      (withCount layout.human_review_count "human-review finding(s)"
        (withCount layout.blocking_count "blocking finding(s)" summary))

def signoffEvidenceFromDiffpairLength (manifest : ProofManifest K) : List SignoffEvidence :=
  manifest.diffpair_length.toList.map fun diffpair =>
    gate "diff-pair-length" diffpair.passed
      (withCount diffpair.missing_route_count "missing route evidence item(s)"
        (withCount diffpair.violation_count "length/skew violation(s)" diffpair.message))

def signoffEvidenceFromImpedanceReturnPath (manifest : ProofManifest K) : List SignoffEvidence :=
  manifest.impedance_return_path.toList.map fun risk =>
    reviewed "impedance-return-path" risk.passed risk.human_review_required risk.blocked
      (orText risk.message s!"{risk.assumption_count} impedance assumption(s), {risk.diagnostic_count} diagnostic(s)")

def signoffEvidenceFromRepairProposals (manifest : ProofManifest K) : List SignoffEvidence :=
  manifest.repair_proposals.toList.map fun repair =>
    let summary := orText repair.message s!"{repair.proposal_count} repair proposal(s), {repair.verified_count} verified"
    reviewed "repair-proposals" repair.passed repair.human_review_required repair.blocked
      (withCount repair.silent_repair_count "silent repair(s)" summary)

/-- The second item, when a review is required, does not block. -/
def signoffEvidenceFromVerifyRepair (manifest : ProofManifest K) : List SignoffEvidence :=
  manifest.verify_repair.toList.flatMap fun verify_repair =>
    gate "verify-repair" verify_repair.converged verify_repair.message ::
      if verify_repair.human_review_required then
        [{ name := "verify-repair-human-review"
           status := .warning
           summary := s!"verify/repair stopped with {verify_repair.stop_reason}"
           release_blocking := false
           human_review_required := true }]
      else []

def signoffEvidenceFromSimulationSignoff (manifest : ProofManifest K) : List SignoffEvidence :=
  manifest.simulation_signoff.toList.map fun simulation =>
    reviewed "simulation-signoff" (!simulation.blocked) simulation.human_review_required simulation.blocked
      simulation.message

def signoffEvidenceFromRailCurrentBudget (manifest : ProofManifest K) : List SignoffEvidence :=
  manifest.rail_current_budget.toList.map fun budget =>
    let summary := orText budget.message s!"{budget.rail_count} rail(s), {budget.failure_count} budget failure(s)"
    reviewed "rail-current-budget" budget.passed budget.human_review_required budget.blocked
      (withCount budget.missing_metadata_count "missing current metadata item(s)" summary)

def signoffEvidenceFromRegulatorMargin (manifest : ProofManifest K) : List SignoffEvidence :=
  manifest.regulator_margin.toList.map fun margin =>
    let summary := orText margin.message s!"{margin.regulator_count} regulator(s), {margin.failure_count} margin failure(s)"
    reviewed "regulator-margin" margin.passed margin.human_review_required margin.blocked
      (withCount margin.missing_metadata_count "missing regulator metadata item(s)" summary)

def signoffEvidenceFromCurrentDensity (manifest : ProofManifest K) : List SignoffEvidence :=
  manifest.current_density.toList.map fun density =>
    let summary := orText density.message
      s!"{density.high_current_net_count} high-current net(s), {density.violation_count} width violation(s)"
    reviewed "current-density" density.passed density.human_review_required density.blocked
      (withCount density.missing_route_count "missing route evidence item(s)" summary)

def signoffEvidenceFromSipiRisk (manifest : ProofManifest K) : List SignoffEvidence :=
  manifest.sipi_risk.toList.map fun risk =>
    reviewed "sipi-risk" risk.passed risk.human_review_required risk.blocked
      (orText risk.message
        s!"{risk.high_speed_net_count} high-speed net(s), {risk.decoupling_issue_count} decoupling issue(s)")

def signoffEvidenceFromBomProvenance (manifest : ProofManifest K) : List SignoffEvidence :=
  manifest.bom_provenance.map fun bom =>
    gate "supply-chain-risk" (!bom.blocked)
      (withCount bom.obsolete_required_parts "obsolete required part(s)"
        (withCount bom.unresolved_required_parts "unresolved required part(s)" bom.message))

def signoffEvidenceFromRequirementsCoverage (manifest : ProofManifest K) : List SignoffEvidence :=
  manifest.requirements_coverage.toList.map fun coverage =>
    gate "requirements-coverage" (coverage.fully_covered && coverage.fully_traced)
      (withCount coverage.untraced_artifact_count "untraced artifact(s)" coverage.message)

/-- The status of an oracle: a waiver needs an approval and a reason. -/
def oracleStatus (text : SignoffText) (oracle : KiCadOracleEvidence) : SignoffCheckStatus :=
  let status_raw := text.lower (pyStrip oracle.status)
  if status_raw ∈ ["pass", "passed", "success"] then .pass
  else if status_raw = "waived" then if oracle.approval_id ≠ "" ∧ oracle.waiver_reason ≠ "" then .pass else .fail
  else if status_raw ∈ ["fail", "failed", "error"] then .fail
  else if status_raw ∈ ["skip", "skipped"] then .skipped else .unknown

def oracleEvidence (text : SignoffText) (oracle : KiCadOracleEvidence) : SignoffEvidence where
  name := s!"kicad:{oracle.check}"
  status := oracleStatus text oracle
  source := "kicad"
  summary := orText oracle.message (orText oracle.waiver_reason oracle.skip_reason)
  approval_id := orText oracle.approval_id oracle.skip_reason

def signoffEvidenceFromOracles (text : SignoffText) (manifest : ProofManifest K) : List SignoffEvidence :=
  if manifest.requires_kicad_oracle ∧ manifest.kicad_oracle = [] then
    [{ name := "kicad:missing_oracle"
       status := .unknown
       source := "kicad"
       summary := "KiCad oracle evidence is required but no KiCad ERC/DRC evidence was recorded" }]
  else manifest.kicad_oracle.map (oracleEvidence text)

/-! ## The decision -/

def signoffEvidence (text : SignoffText) (pack : ProofPack K D) : List SignoffEvidence :=
  let manifest := pack.manifest
  [signoffEvidenceFromResults pack.results, signoffEvidenceFromOracles text manifest,
    signoffEvidenceFromNetlistParity manifest, signoffEvidenceFromComponentMetadata manifest,
    signoffEvidenceFromComponentSelection manifest, signoffEvidenceFromArchitecture manifest,
    signoffEvidenceFromDerating manifest, signoffEvidenceFromDatasheetProvenance manifest,
    signoffEvidenceFromFootprintProof manifest, signoffEvidenceFromPlacementScorecard text manifest,
    signoffEvidenceFromLayoutQuality text manifest, signoffEvidenceFromDiffpairLength manifest,
    signoffEvidenceFromImpedanceReturnPath manifest, signoffEvidenceFromRepairProposals manifest,
    signoffEvidenceFromVerifyRepair manifest, signoffEvidenceFromSimulationSignoff manifest,
    signoffEvidenceFromRailCurrentBudget manifest, signoffEvidenceFromRegulatorMargin manifest,
    signoffEvidenceFromCurrentDensity manifest, signoffEvidenceFromSipiRisk manifest,
    signoffEvidenceFromBomProvenance manifest, signoffEvidenceFromRequirementsCoverage manifest,
    signoffEvidenceFromAssumptions manifest].flatten

def ProofPack.updateAutonomousSignoff (text : SignoffText) (pack : ProofPack K D) : ProofPack K D :=
  { pack with manifest := { pack.manifest with autonomous_signoff := evaluate (signoffEvidence text pack) } }

end ZapTrace.Proof
