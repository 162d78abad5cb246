import Mathlib.Data.List.Infix
import Mathlib.Tactic.NormNum
import ZapTrace.Library.LastValue
import ZapTrace.Parts.Datasheet

/-!
# The selection of parts

One candidate for a position is assessed from its component record, its datasheet facts, its footprint proof and its
supply. Every finding with the severity error makes it ineligible. The rules for footprint proofs and for governed
components come as parameters, and so do the parts of a record and of a proof that only they read; the hash of an
assessment is left out. Numbers are exact.
-/

namespace ZapTrace.Parts

/-! ## Requirements, records and evidence -/

inductive SelectionDiagnosticSeverity
  | error | warning | info
  deriving DecidableEq

structure SelectionDiagnostic where
  code : String
  severity : SelectionDiagnosticSeverity
  message : String
  expected : String := ""
  observed : String := ""
  deriving DecidableEq

structure SelectionScoreDimension where
  name : String
  score : ℚ
  weight : ℚ
  explanation : String

inductive LifecycleStatus
  | active | nrnd | obsolete | unknown
  deriving DecidableEq

inductive CacheStatus
  | fresh | stale | miss | fixture
  deriving DecidableEq

inductive RiskLevel
  | low | medium | high | critical
  deriving DecidableEq

namespace RiskLevel

def value : RiskLevel → String
  | low => "low"
  | medium => "medium"
  | high => "high"
  | critical => "critical"

/-- `_RISK_ORDER` -/
def order : RiskLevel → ℕ
  | low => 0
  | medium => 1
  | high => 2
  | critical => 3

end RiskLevel

structure CacheMetadata where
  status : CacheStatus := .miss
  max_age_hours : ℕ := 24
  age_hours : Option ℚ := none

/-- The property `stale`. -/
def CacheMetadata.stale (cache : CacheMetadata) : Bool :=
  cache.status = .stale ||
    cache.age_hours.any fun age_hours => cache.max_age_hours > 0 && age_hours > (cache.max_age_hours : ℚ)

structure BomProviderResult where
  stock : Option ℕ := none
  lifecycle : LifecycleStatus := .unknown
  footprint : String := ""
  cache : CacheMetadata := {}

structure ComponentSelectionRequirement where
  position : String
  category : String
  operating_voltage_v : Option ℚ := none
  operating_current_a : Option ℚ := none
  operating_power_w : Option ℚ := none
  voltage_utilization_max : ℚ := 4 / 5
  current_utilization_max : ℚ := 4 / 5
  power_utilization_max : ℚ := 1 / 2
  allowed_packages : List String := []
  required_footprint : String := ""
  required_pin_functions : Dict String String := .empty
  max_supply_risk : RiskLevel := .high
  require_release_eligible : Bool := false

/-- A component record; `ρ` has the fields that only the governance reads. -/
structure ComponentSpec (ρ : Type) where
  id : String
  category : String
  package : String := ""
  footprint : String := ""
  pins : Dict String (Dict String String) := .empty
  package_pin_map : Dict String String := .empty
  electrical_limits : Dict String PyValue := .empty
  governed : ρ

/-- A footprint proof; `φ` has the fields that only its validation reads. -/
structure FootprintProof (φ : Type) where
  package_id : String
  footprint_name : String
  geometry : φ

structure ComponentSelectionEvidence (φ : Type) where
  datasheet : Option DatasheetFactReport := none
  footprint : Option (FootprintProof φ) := none
  supply : Option BomProviderResult := none

inductive ComponentTrustTier
  | verified | curated | heuristic | placeholder
  deriving DecidableEq

namespace ComponentTrustTier

def value : ComponentTrustTier → String
  | verified => "verified"
  | curated => "curated"
  | heuristic => "heuristic"
  | placeholder => "placeholder"

end ComponentTrustTier

structure ComponentGovernanceValidation where
  release_eligible : Bool
  human_review_required : Bool
  trust_tier : ComponentTrustTier

/-- The pins that a proof is compared with: the keyword that is given. -/
inductive ExpectedPins
  | pins (names : List String)
  | physicalPins (names : List String)

structure FootprintProofValidationReport where
  blocked : Bool
  /-- the codes of the findings with the severity error -/
  error_codes : List String

structure SelectionRules (ρ φ : Type) where
  /-- `validate_footprint_proof` -/
  validateFootprintProof : FootprintProof φ → ExpectedPins → FootprintProofValidationReport
  /-- `validate_governed_component` -/
  validateGovernedComponent : ComponentSpec ρ → ComponentGovernanceValidation

structure ComponentCandidateAssessment where
  component_id : String
  eligible : Bool
  score : ℚ
  score_dimensions : List SelectionScoreDimension
  diagnostics : List SelectionDiagnostic
  extracted_constraints : Dict String PyValue
  trust_tier : ComponentTrustTier
  release_eligible : Bool
  human_review_required : Bool

variable {ρ φ : Type} (text : PartText) (rules : SelectionRules ρ φ)

/-! ## Category, package, footprint and pins -/

def categoryDiagnostics (requirement : ComponentSelectionRequirement) (spec : ComponentSpec ρ) :
    List SelectionDiagnostic :=
  if spec.category = requirement.category then []
  else
    [{ code := "category-mismatch"
       severity := .error
       message := spec.id ++ " category does not satisfy " ++ requirement.position
       expected := requirement.category
       observed := spec.category }]

/-- `a or b` of two texts, where the first may be missing. -/
def textOr (a : Option String) (b : String) : String :=
  if a.getD "" = "" then b else a.getD ""

def observedFunction (spec : ComponentSpec ρ) (pin_id : String) : String :=
  let raw_pin := (spec.pins.get? pin_id).getD .empty
  textOr (raw_pin.get? "function") (textOr (raw_pin.get? "description") (textOr (raw_pin.get? "type") ""))

def physicalDiagnostics (requirement : ComponentSelectionRequirement) (spec : ComponentSpec ρ) :
    List SelectionDiagnostic :=
  (if requirement.allowed_packages ≠ [] ∧ spec.package ∉ requirement.allowed_packages then
    [{ code := "package-mismatch"
       severity := .error
       message := spec.id ++ " package is outside the allowed package set"
       expected := ", ".intercalate (requirement.allowed_packages.insertionSort (· ≤ ·))
       observed := spec.package }]
  else []) ++
  (if requirement.required_footprint ≠ "" ∧ spec.footprint ≠ requirement.required_footprint then
    [{ code := "footprint-mismatch"
       severity := .error
       message := spec.id ++ " footprint does not match the required footprint"
       expected := requirement.required_footprint
       observed := spec.footprint }]
  else []) ++
  (requirement.required_pin_functions.items.insertionSort fun a b => a.1 ≤ b.1).filterMap fun item =>
    let observed := observedFunction spec item.1
    if text.casefold observed ≠ text.casefold item.2 then
      some
        { code := "pin-function-mismatch"
          severity := .error
          message := spec.id ++ " pin " ++ item.1 ++ " does not provide the required function"
          expected := item.2
          observed := textOr (some observed) "missing" }
    else none

/-! ## One number for each key -/

inductive Metric
  | voltage | current | power
  deriving DecidableEq

namespace Metric

def name : Metric → String
  | voltage => "voltage"
  | current => "current"
  | power => "power"

end Metric

def factConstraintKeys : Metric → Option DatasheetFactScope → String
  | .voltage, some .absoluteMaximum => "absolute_voltage_max_v"
  | .voltage, some .recommendedOperating => "recommended_voltage_max_v"
  | .voltage, _ => "voltage_rating_v"
  | .current, some .absoluteMaximum => "absolute_current_max_a"
  | .current, some .recommendedOperating => "recommended_current_max_a"
  | .current, _ => "current_rating_a"
  | .power, some .absoluteMaximum => "absolute_power_max_w"
  | .power, some .recommendedOperating => "recommended_power_max_w"
  | .power, _ => "power_rating_w"

/-- The metric whose maximum a field states: the first one that the field names. -/
def factMetric (field : String) : Option Metric :=
  let normalized := text.casefold field
  if "max".toList <:+: normalized.toList then
    [Metric.voltage, .current, .power].find? fun metric => metric.name.toList <:+: normalized.toList
  else none

def keyScope (scope : DatasheetFactScope) : Option DatasheetFactScope :=
  if scope = .absoluteMaximum ∨ scope = .recommendedOperating then some scope else none

def factConstraintKey (field : String) (scope : DatasheetFactScope) : Option String :=
  (factMetric text field).map fun metric => factConstraintKeys metric (keyScope scope)

def asFloat : PyValue → Option ℚ
  | .none => none
  | .str s => if s = "" then none else text.parseFloat s
  | .bool b => some (if b then 1 else 0)
  | .int i => some i
  | .float q => some q
  | _ => none

/-- The key and the number of a fact, where it has both. -/
def factConstraint (fact : DatasheetFact) : Option (String × ℚ) :=
  (asFloat text fact.value.toPyValue).bind fun value =>
    (factConstraintKey text fact.field fact.scope).map fun key => (key, value)

/-- `_datasheet_constraints`; a later fact with the same key overwrites the number. -/
def datasheetConstraints : Option DatasheetFactReport → Dict String ℚ
  | none => .empty
  | some report => .ofItems (report.facts.filterMap (factConstraint text))

def supplyRisk (spec : ComponentSpec ρ) : Option BomProviderResult → RiskLevel
  | none => .medium
  | some supply =>
    if supply.lifecycle = .obsolete ∨ supply.stock = some 0 then .critical
    else if supply.lifecycle = .nrnd then .high
    else if supply.footprint ≠ "" ∧ spec.footprint ≠ "" ∧ supply.footprint ≠ spec.footprint then .high
    else if supply.lifecycle = .unknown then .medium
    else
      match supply.stock with
      | none => .medium
      | some stock => if stock < 100 ∨ supply.cache.stale = true then .medium else .low

def extractConstraints (spec : ComponentSpec ρ) (evidence : ComponentSelectionEvidence φ) : Dict String PyValue :=
  let extracted := spec.electrical_limits.update ((datasheetConstraints text evidence.datasheet).mapValues .float)
  (((extracted.set "package" (.str spec.package)).set "footprint" (.str spec.footprint)).set "pin_count"
    (.int spec.pins.keys.length)).set "supply_risk" (.str (supplyRisk spec evidence.supply).value)

/-! ## Electrical limits -/

def firstFloat (mapping : Dict String PyValue) (names : List String) : Option ℚ :=
  names.findSome? fun name => asFloat text ((mapping.get? name).getD .none)

/-- `a or b` of two numbers that may be missing: zero counts as missing. -/
def floatOr (a b : Option ℚ) : Option ℚ :=
  match a with
  | some q => if q = 0 then b else some q
  | none => b

def rating (extracted : Dict String PyValue) (recommended absolute fallback : List String) : Option ℚ :=
  floatOr (floatOr (firstFloat text extracted recommended) (firstFloat text extracted absolute))
    (firstFloat text extracted fallback)

def metricDiagnostic (component_id metric : String) (used rating : Option ℚ) (utilization_limit : ℚ) :
    Option SelectionDiagnostic :=
  used.bind fun used =>
    match rating with
    | none =>
      some
        { code := metric ++ "-limit-missing"
          severity := .warning
          message := component_id ++ " has no machine-readable " ++ metric ++
            " rating for the declared operating point"
          observed := text.str (.float used) }
    | some rating =>
      if rating ≤ 0 then
        some
          { code := metric ++ "-limit-missing"
            severity := .warning
            message := component_id ++ " has no machine-readable " ++ metric ++
              " rating for the declared operating point"
            observed := text.str (.float used) }
      else if used ≤ rating * utilization_limit then none
      else
        some
          { code := metric ++ "-limit-exceeded"
            severity := .error
            message := component_id ++ " operating " ++ metric ++ " exceeds the configured derating envelope"
            expected := "<= " ++ text.general6 (rating * utilization_limit)
            observed := text.general6 used }

def voltageRating (extracted : Dict String PyValue) : Option ℚ :=
  rating text extracted ["recommended_voltage_max_v"] ["absolute_voltage_max_v"]
    ["max_voltage_v", "voltage_rating_v", "rated_voltage_v"]

def currentRating (extracted : Dict String PyValue) : Option ℚ :=
  rating text extracted ["recommended_current_max_a"] ["absolute_current_max_a"]
    ["current_rating_a", "max_current_a", "output_current_max_a"]

def powerRating (extracted : Dict String PyValue) : Option ℚ :=
  rating text extracted ["recommended_power_max_w"] ["absolute_power_max_w"]
    ["max_power_w", "rated_power_w", "power_rating_w"]

def electricalDiagnostics (requirement : ComponentSelectionRequirement) (spec : ComponentSpec ρ)
    (extracted : Dict String PyValue) : List SelectionDiagnostic :=
  [metricDiagnostic text spec.id "voltage" requirement.operating_voltage_v (voltageRating text extracted)
      requirement.voltage_utilization_max,
    metricDiagnostic text spec.id "current" requirement.operating_current_a (currentRating text extracted)
      requirement.current_utilization_max,
    metricDiagnostic text spec.id "power" requirement.operating_power_w (powerRating text extracted)
      requirement.power_utilization_max].filterMap id

/-! ## Datasheet, footprint, supply and release -/

def datasheetDiagnostics : Option DatasheetFactReport → List SelectionDiagnostic
  | none => []
  | some report =>
    let validation := validateDatasheetFacts text report
    (if validation.blocked then
      [{ code := "datasheet-facts-blocked"
         severity := .error
         message := "datasheet fact validation reported blocking provenance or conflicts"
         expected := "valid hashed, non-conflicting facts"
         observed := ", ".intercalate
          (sortedSet ((validation.diagnostics.filter fun item => item.severity = .error).map fun item => item.code)) }]
    else []) ++
    if validation.human_review_required then
      [{ code := "datasheet-review-required"
         severity := .warning
         message := toString validation.low_confidence_count ++
          " low-confidence datasheet fact(s) require review" }]
    else []

def validateComponentFootprint (spec : ComponentSpec ρ) (proof : FootprintProof φ) :
    FootprintProofValidationReport :=
  if spec.package_pin_map.keys ≠ [] then rules.validateFootprintProof proof (.physicalPins spec.package_pin_map.keys)
  else rules.validateFootprintProof proof (.pins spec.pins.keys)

def footprintDiagnostics (spec : ComponentSpec ρ) : Option (FootprintProof φ) → List SelectionDiagnostic
  | none => []
  | some proof =>
    let validation := validateComponentFootprint rules spec proof
    (if validation.blocked then
      [{ code := "footprint-proof-blocked"
         severity := .error
         message := "footprint proof does not match the component pin/pad contract"
         expected := "complete matching pin map and footprint geometry"
         observed := ", ".intercalate (sortedSet validation.error_codes) }]
    else []) ++
    if proof.package_id ≠ spec.package ∨ proof.footprint_name ≠ spec.footprint then
      [{ code := "footprint-proof-mismatch"
         severity := .error
         message := "attached footprint proof belongs to a different package or footprint"
         expected := spec.package ++ " / " ++ spec.footprint
         observed := proof.package_id ++ " / " ++ proof.footprint_name }]
    else []

/-- The findings of `_supply_diagnostics`. -/
def supplyDiagnostics (requirement : ComponentSelectionRequirement) (spec : ComponentSpec ρ)
    (supply : Option BomProviderResult) : List SelectionDiagnostic :=
  if (supplyRisk spec supply).order ≤ requirement.max_supply_risk.order then []
  else
    [{ code := "supply-risk-blocked"
       severity := .error
       message := spec.id ++ " supply risk exceeds the requirement ceiling"
       expected := requirement.max_supply_risk.value
       observed := (supplyRisk spec supply).value }]

def releaseDiagnostics (requirement : ComponentSelectionRequirement) (spec : ComponentSpec ρ) :
    List SelectionDiagnostic :=
  let governance := rules.validateGovernedComponent spec
  if ¬ requirement.require_release_eligible ∨ governance.release_eligible then []
  else
    [{ code := "release-eligibility-required"
       severity := .error
       message := spec.id ++ " is not eligible for release/fabrication use"
       expected := "release_eligible=true"
       observed := "trust_tier=" ++ governance.trust_tier.value }]

/-! ## The assessment -/

def footprintScore (spec : ComponentSpec ρ) (evidence : ComponentSelectionEvidence φ) : SelectionScoreDimension :=
  match evidence.footprint with
  | some proof =>
    if (validateComponentFootprint rules spec proof).blocked then
      { name := "footprint", score := 0, weight := 1 / 5, explanation := "attached footprint proof is blocked" }
    else { name := "footprint", score := 1, weight := 1 / 5, explanation := "attached footprint proof passes" }
  | none =>
    if spec.footprint ≠ "" then
      { name := "footprint", score := 3 / 5, weight := 1 / 5
        explanation := "component declares a footprint but no attached footprint proof" }
    else
      { name := "footprint", score := 0, weight := 1 / 5
        explanation := "component has no usable footprint reference" }

/-- `scores` in `_evidence_score` -/
def trustScore : ComponentTrustTier → ℚ
  | .verified => 1
  | .curated => 4 / 5
  | .heuristic => 1 / 2
  | .placeholder => 0

def evidenceScore (spec : ComponentSpec ρ) (evidence : ComponentSelectionEvidence φ) : SelectionScoreDimension :=
  let tier := (rules.validateGovernedComponent spec).trust_tier
  { name := "evidence"
    score :=
      if evidence.datasheet.any fun report => !(validateDatasheetFacts text report).blocked then
        min 1 (trustScore tier + 1 / 10)
      else trustScore tier
    weight := 1 / 4
    explanation := "component trust tier is " ++ tier.value }

/-- `scores` in `_supply_score` -/
def supplyScores : RiskLevel → ℚ
  | .low => 1
  | .medium => 3 / 5
  | .high => 1 / 4
  | .critical => 0

def supplyScore (spec : ComponentSpec ρ) (evidence : ComponentSelectionEvidence φ) : SelectionScoreDimension :=
  let risk := supplyRisk spec evidence.supply
  { name := "supply"
    score := supplyScores risk
    weight := 1 / 5
    explanation := "supply risk is " ++ risk.value }

/-- The findings of `assess_component_candidate`. -/
def candidateDiagnostics (requirement : ComponentSelectionRequirement) (spec : ComponentSpec ρ)
    (attached : ComponentSelectionEvidence φ) : List SelectionDiagnostic :=
  categoryDiagnostics requirement spec ++
    physicalDiagnostics text requirement spec ++
    electricalDiagnostics text requirement spec (extractConstraints text spec attached) ++
    datasheetDiagnostics text attached.datasheet ++
    footprintDiagnostics rules spec attached.footprint ++
    supplyDiagnostics requirement spec attached.supply ++
    releaseDiagnostics rules requirement spec

def assessComponentCandidate (requirement : ComponentSelectionRequirement) (spec : ComponentSpec ρ)
    (attached : ComponentSelectionEvidence φ) : ComponentCandidateAssessment :=
  let diagnostics := candidateDiagnostics text rules requirement spec attached
  let errors := diagnostics.filter fun item => item.severity = .error
  let warnings := diagnostics.filter fun item => item.severity = .warning
  let governance := rules.validateGovernedComponent spec
  let dimensions :=
    [{ name := "constraint_fit"
       score := if errors ≠ [] then 0 else 1
       weight := 7 / 20
       explanation := if errors ≠ [] then "hard constraints failed" else "declared hard constraints pass" },
      evidenceScore text rules spec attached, footprintScore rules spec attached, supplyScore spec attached]
  { component_id := spec.id
    eligible := errors.isEmpty
    -- the sum has four decimals at most, and rounding it to six changes nothing
    score := (dimensions.map fun item => item.score * item.weight).sum
    score_dimensions := dimensions
    diagnostics := diagnostics
    extracted_constraints := extractConstraints text spec attached
    trust_tier := governance.trust_tier
    release_eligible := governance.release_eligible
    human_review_required :=
      errors ≠ [] || warnings ≠ [] || governance.human_review_required || attached.datasheet.isNone ||
        attached.footprint.isNone || attached.supply.isNone || supplyRisk spec attached.supply ≠ .low }

end ZapTrace.Parts
