import ZapTrace.Parts.Selection

/-!
# Ratings and operating values

The numbers of a datasheet report go into one dictionary, so of several facts for one key the last one stays. Which
fact is the last one depends on the order of the report, and the numbers are read without their units. A candidate is
therefore judged by one reading of the report out of many.

## Main results

* `eligible_iff`: what eligibility is
* `exists_report_of_isReading`: every reading is that of some order of the facts
* `keepsRatings_iff`: when the ratings are kept
-/

namespace ZapTrace.Parts

open List hiding isEmpty_iff
open Dict

variable {ρ φ : Type} (text : PartText) (rules : SelectionRules ρ φ)

namespace Metric

def all : List Metric := [voltage, current, power]

theorem mem_all (metric : Metric) : metric ∈ all := by
  cases metric <;> decide

/-- The declared operating value. -/
def used (requirement : ComponentSelectionRequirement) : Metric → Option ℚ
  | voltage => requirement.operating_voltage_v
  | current => requirement.operating_current_a
  | power => requirement.operating_power_w

def limit (requirement : ComponentSelectionRequirement) : Metric → ℚ
  | voltage => requirement.voltage_utilization_max
  | current => requirement.current_utilization_max
  | power => requirement.power_utilization_max

/-- The keys of last resort. -/
def fallback : Metric → List String
  | voltage => ["max_voltage_v", "voltage_rating_v", "rated_voltage_v"]
  | current => ["current_rating_a", "max_current_a", "output_current_max_a"]
  | power => ["max_power_w", "rated_power_w", "power_rating_w"]

def recommended (metric : Metric) : String := factConstraintKeys metric (some .recommendedOperating)

def absolute (metric : Metric) : String := factConstraintKeys metric (some .absoluteMaximum)

def keys (metric : Metric) : List String := metric.recommended :: metric.absolute :: metric.fallback

def ofKey (key : String) : Metric := (all.find? fun metric => key ∈ metric.keys).getD voltage

theorem ofKey_eq {metric : Metric} {key : String} (h : key ∈ metric.keys) : ofKey key = metric := by
  have hkeys : ∀ metric ∈ all, ∀ key ∈ metric.keys, ofKey key = metric := by decide
  exact hkeys metric metric.mem_all key h

def ratingFrom (metric : Metric) (choice : String → Option ℚ) : Option ℚ :=
  floatOr (floatOr (choice metric.recommended) (choice metric.absolute)) (metric.fallback.findSome? choice)

theorem ratingFrom_congr {metric : Metric} {choice choice' : String → Option ℚ}
    (h : ∀ key ∈ metric.keys, choice key = choice' key) : metric.ratingFrom choice = metric.ratingFrom choice' := by
  obtain ⟨hrecommended, h⟩ := forall_mem_cons.mp h
  obtain ⟨habsolute, hfallback⟩ := forall_mem_cons.mp h
  have hlast : metric.fallback.findSome? choice = metric.fallback.findSome? choice' := by
    rw [← Function.id_comp choice, ← Function.id_comp choice', ← findSome?_map, ← findSome?_map,
      map_congr_left hfallback]
  unfold ratingFrom
  rw [hrecommended, habsolute, hlast]

/-- The check of the metric passes: no positive rating is below the operating value. -/
def Fits (requirement : ComponentSelectionRequirement) (metric : Metric) (rating : Option ℚ) : Prop :=
  ∀ used ∈ metric.used requirement, ∀ r ∈ rating, 0 < r → used ≤ r * metric.limit requirement

end Metric

/-! ## What eligibility is -/

theorem metricDiagnostic_passes_iff (component_id metric : String) {used rating : Option ℚ} {limit : ℚ} :
    (∀ item ∈ metricDiagnostic text component_id metric used rating limit, item.severity ≠ .error) ↔
      ∀ u ∈ used, ∀ r ∈ rating, 0 < r → u ≤ r * limit := by
  cases used with
  | none => simp [metricDiagnostic]
  | some u =>
    cases rating with
    | none => simp [metricDiagnostic]
    | some r =>
      by_cases hr : r ≤ 0
      · simp [metricDiagnostic, hr, not_lt.mpr hr]
      · by_cases hu : u ≤ r * limit
        · simp [metricDiagnostic, hr, hu]
        · simp [metricDiagnostic, hr, hu, not_le.mp hr]

def metricRating (extracted : Dict String PyValue) : Metric → Option ℚ
  | .voltage => voltageRating text extracted
  | .current => currentRating text extracted
  | .power => powerRating text extracted
variable {requirement : ComponentSelectionRequirement}

theorem electricalDiagnostics_passes_iff (spec : ComponentSpec ρ) {extracted : Dict String PyValue} :
    (∀ item ∈ electricalDiagnostics text requirement spec extracted, item.severity ≠ .error) ↔
      ∀ metric : Metric, metric.Fits requirement (metricRating text extracted metric) := by
  have hmetrics : ∀ P : Metric → Prop, (∀ metric, P metric) ↔ P .voltage ∧ P .current ∧ P .power := by
    intro P
    constructor
    · exact fun h => ⟨h .voltage, h .current, h .power⟩
    · rintro ⟨hvoltage, hcurrent, hpower⟩ (_ | _ | _)
      exacts [hvoltage, hcurrent, hpower]
  rw [hmetrics]
  unfold Metric.Fits
  rw [← metricDiagnostic_passes_iff text spec.id "voltage", ← metricDiagnostic_passes_iff text spec.id "current",
    ← metricDiagnostic_passes_iff text spec.id "power"]
  simp only [electricalDiagnostics, mem_filterMap, mem_cons, not_mem_nil, or_false, id_eq,
    or_and_right, exists_or, exists_eq_left, or_imp, forall_and]
  exact Iff.rfl

/-- The findings that the order of the facts has no part in. -/
def otherDiagnostics (requirement : ComponentSelectionRequirement) (spec : ComponentSpec ρ)
    (attached : ComponentSelectionEvidence φ) : List SelectionDiagnostic :=
  categoryDiagnostics requirement spec ++
    physicalDiagnostics text requirement spec ++
    datasheetDiagnostics text attached.datasheet ++
    footprintDiagnostics rules spec attached.footprint ++
    supplyDiagnostics requirement spec attached.supply ++
    releaseDiagnostics rules requirement spec

/-- No other check has an error. -/
def OthersPass (requirement : ComponentSelectionRequirement) (spec : ComponentSpec ρ)
    (attached : ComponentSelectionEvidence φ) : Prop :=
  ∀ item ∈ otherDiagnostics text rules requirement spec attached, item.severity ≠ .error
variable {attached : ComponentSelectionEvidence φ} {spec : ComponentSpec ρ}

theorem eligible_iff :
    (assessComponentCandidate text rules requirement spec attached).eligible = true ↔
      OthersPass text rules requirement spec attached ∧
        ∀ metric : Metric, metric.Fits requirement
          (metricRating text (extractConstraints text spec attached) metric) := by
  rw [← electricalDiagnostics_passes_iff text spec]
  show isEmpty (filter _ _) = true ↔ _
  rw [List.isEmpty_iff, filter_eq_nil_iff]
  simp only [decide_eq_true_eq, OthersPass, otherDiagnostics, candidateDiagnostics, mem_append, or_imp,
    forall_and]
  tauto

/-! ## Readings of a report -/

def statedNumbers (report : DatasheetFactReport) (key : String) : List ℚ :=
  valuesAt (report.facts.filterMap (factConstraint text)) key

def recordNumber (spec : ComponentSpec ρ) (key : String) : Option ℚ :=
  asFloat text ((spec.electrical_limits.get? key).getD .none)

/-- One of the stated numbers for each key, and that of the record where the report states none. -/
def IsReading (spec : ComponentSpec ρ) (report : DatasheetFactReport) (choice : String → Option ℚ) : Prop :=
  ∀ key, if statedNumbers text report key = [] then choice key = recordNumber text spec key
    else ∃ number ∈ statedNumbers text report key, choice key = some number

def lastReading (spec : ComponentSpec ρ) (report : DatasheetFactReport) (key : String) : Option ℚ :=
  (statedNumbers text report key).getLast?.or (recordNumber text spec key)

theorem isReading_lastReading (spec : ComponentSpec ρ) (report : DatasheetFactReport) :
    IsReading text spec report (lastReading text spec report) := by
  intro key
  unfold lastReading
  split
  next hempty => rw [hempty, getLast?_nil, Option.none_or]
  next hne =>
    exact ⟨_, getLast_mem hne, by rw [getLast?_eq_some_getLast hne, Option.some_or]⟩

theorem statedNumbers_perm {report report' : DatasheetFactReport} (h : report'.facts.Perm report.facts)
    (key : String) : (statedNumbers text report' key).Perm (statedNumbers text report key) :=
  valuesAt_perm (h.filterMap _) key

theorem IsReading.perm {report report' : DatasheetFactReport} {choice : String → Option ℚ}
    (h : IsReading text spec report' choice) (hperm : report'.facts.Perm report.facts) :
    IsReading text spec report choice := by
  intro key
  have hkey := h key
  have hstated := statedNumbers_perm text hperm key
  simp only [hstated.mem_iff] at hkey
  by_cases hempty : statedNumbers text report key = []
  · rw [if_pos (perm_nil.mp (hempty ▸ hstated))] at hkey
    rw [if_pos hempty]
    exact hkey
  · have hne : statedNumbers text report' key ≠ [] := fun hnil => hempty (nil_perm.mp (hnil ▸ hstated))
    rw [if_neg hne] at hkey
    rw [if_neg hempty]
    exact hkey

variable {report : DatasheetFactReport}

theorem exists_report_of_isReading {choice : String → Option ℚ} (h : IsReading text spec report choice) :
    ∃ report' : DatasheetFactReport, report'.facts.Perm report.facts ∧ lastReading text spec report' = choice := by
  obtain ⟨facts, hperm, hlast⟩ := exists_perm_forall_getLast? (factConstraint text)
    (fun key => (choice key).getD 0) report.facts fun key hne => by
      obtain ⟨number, hmem, hnumber⟩ := (if_neg hne).mp (h key)
      rw [hnumber]
      exact hmem
  have hfacts : (DatasheetFactReport.facts { other_facts := facts }).Perm report.facts := hperm
  refine ⟨{ other_facts := facts }, hfacts, ?_⟩
  ext1 key
  have hkey := h key
  unfold lastReading
  split at hkey
  next hempty =>
    have hstated := statedNumbers_perm text hfacts key
    rw [hempty] at hstated
    rw [perm_nil.mp hstated, getLast?_nil, Option.none_or, hkey]
  next hne =>
    obtain ⟨number, -, hnumber⟩ := hkey
    have hlast := hlast key hne
    rw [hnumber] at hlast
    rw [hnumber]
    show (valuesAt (facts.filterMap (factConstraint text)) key).getLast?.or _ = _
    rw [hlast]
    rfl

/-! ## The rating is that of the last reading -/

/-- The keys that are set after the limits. -/
def recordKeys : List String := ["package", "footprint", "pin_count", "supply_risk"]

theorem asFloat_extractConstraints (hreport : attached.datasheet = some report) {key : String} (hkey : key ∉ recordKeys) :
    asFloat text (((extractConstraints text spec attached).get? key).getD .none) =
      lastReading text spec report key := by
  simp only [recordKeys, mem_cons, not_mem_nil, or_false, not_or] at hkey
  obtain ⟨hpackage, hfootprint, hpins, hrisk⟩ := hkey
  unfold extractConstraints
  rw [get?_set_of_ne _ _ hrisk, get?_set_of_ne _ _ hpins, get?_set_of_ne _ _ hfootprint,
    get?_set_of_ne _ _ hpackage, get?_update, hreport, get?_mapValues, datasheetConstraints,
    get?_ofItems]
  show asFloat text (((statedNumbers text report key).getLast?.map PyValue.float).or _ |>.getD .none) = _
  unfold lastReading
  cases (statedNumbers text report key).getLast? with
  | none => rfl
  | some number => rfl

theorem firstFloat_singleton (mapping : Dict String PyValue) (name : String) :
    firstFloat text mapping [name] = asFloat text ((mapping.get? name).getD .none) := by
  unfold firstFloat
  rw [findSome?_cons]
  cases asFloat text ((mapping.get? name).getD .none) <;> rfl

theorem metricRating_extractConstraints (hreport : attached.datasheet = some report) (metric : Metric) :
    metricRating text (extractConstraints text spec attached) metric =
      metric.ratingFrom (lastReading text spec report) := by
  have hkeys : ∀ metric ∈ Metric.all, ∀ key ∈ metric.keys, key ∉ recordKeys := by decide
  rw [← Metric.ratingFrom_congr fun key hkey =>
    asFloat_extractConstraints text hreport (hkeys metric metric.mem_all key hkey)]
  cases metric <;>
    simp only [metricRating, voltageRating, currentRating, powerRating, rating, firstFloat_singleton] <;>
    rfl

/-! ## What the order of the facts has no part in -/

def withReport (attached : ComponentSelectionEvidence φ) (report : DatasheetFactReport) :
    ComponentSelectionEvidence φ := { attached with datasheet := some report }

theorem othersPass_perm {report report' : DatasheetFactReport} (h : report'.facts.Perm report.facts) :
    OthersPass text rules requirement spec (withReport attached report') ↔
      OthersPass text rules requirement spec (withReport attached report) := by
  have hdatasheet : ∀ report : DatasheetFactReport,
      (∀ item ∈ datasheetDiagnostics text (some report), item.severity ≠ .error) ↔
        (validateDatasheetFacts text report).blocked = false := by
    intro report
    cases hblocked : (validateDatasheetFacts text report).blocked
    · refine iff_of_true (fun item hmem => ?_) rfl
      simp only [datasheetDiagnostics, hblocked, Bool.false_eq_true, if_false, nil_append] at hmem
      split at hmem
      · obtain rfl := mem_singleton.mp hmem
        exact SelectionDiagnosticSeverity.noConfusion
      · cases hmem
    · refine iff_of_false (fun hpasses => ?_) Bool.noConfusion
      simp only [datasheetDiagnostics, hblocked, if_true] at hpasses
      exact hpasses _ (mem_append_left _ mem_cons_self) rfl
  simp only [OthersPass, otherDiagnostics, withReport, mem_append, or_imp, forall_and]
  rw [hdatasheet, hdatasheet, validateDatasheetFacts_blocked_perm text h]

theorem eligible_withReport_iff :
    (assessComponentCandidate text rules requirement spec (withReport attached report)).eligible = true ↔
      OthersPass text rules requirement spec (withReport attached report) ∧
        ∀ metric : Metric, metric.Fits requirement (metric.ratingFrom (lastReading text spec report)) := by
  have hrating : ∀ metric : Metric,
      metricRating text (extractConstraints text spec (withReport attached report)) metric =
        metric.ratingFrom (lastReading text spec report) := metricRating_extractConstraints text rfl
  rw [eligible_iff]
  simp only [hrating]

/-! ## When the ratings are kept -/

/-- The maxima that a report states for a metric, in volts, amperes or watts. -/
def statedMaxima (si : Metric → String → ℚ) (report : DatasheetFactReport) (scope : DatasheetFactScope)
    (metric : Metric) : List ℚ :=
  report.facts.filterMap fun fact =>
    if factMetric text fact.field = some metric ∧ fact.scope = scope then
      (asFloat text fact.value.toPyValue).map fun value => value * si metric fact.unit
    else none

/-- The recommended maxima, and the absolute ones when there are none. -/
def governingMaxima (si : Metric → String → ℚ) (report : DatasheetFactReport) (metric : Metric) : List ℚ :=
  if statedMaxima text si report .recommendedOperating metric ≠ [] then
    statedMaxima text si report .recommendedOperating metric
  else statedMaxima text si report .absoluteMaximum metric

/-- The operating value is at most the utilization limit times every maximum that governs. -/
def Metric.Within (si : Metric → String → ℚ) (requirement : ComponentSelectionRequirement)
    (report : DatasheetFactReport) (metric : Metric) : Prop :=
  ∀ used ∈ metric.used requirement, ∀ maximum ∈ governingMaxima text si report metric,
    used ≤ metric.limit requirement * maximum

/-- An eligible candidate is within the maxima, and the order of the facts does not matter. -/
structure KeepsRatings (si : Metric → String → ℚ) (requirement : ComponentSelectionRequirement)
    (spec : ComponentSpec ρ) (attached : ComponentSelectionEvidence φ) (report : DatasheetFactReport) : Prop where
  within :
    (assessComponentCandidate text rules requirement spec (withReport attached report)).eligible = true →
      ∀ metric : Metric, metric.Within text si requirement report
  permuted : ∀ report' : DatasheetFactReport, report'.facts.Perm report.facts →
    (assessComponentCandidate text rules requirement spec (withReport attached report')).eligible =
      (assessComponentCandidate text rules requirement spec (withReport attached report)).eligible

/-- A reading that takes the numbers of each metric from a reading of its own. -/
def combine (choices : Metric → String → Option ℚ) (key : String) : Option ℚ := choices (Metric.ofKey key) key

theorem isReading_combine {choices : Metric → String → Option ℚ}
    (h : ∀ metric, IsReading text spec report (choices metric)) :
    IsReading text spec report (combine choices) := fun key => h (Metric.ofKey key) key

theorem ratingFrom_combine (choices : Metric → String → Option ℚ) (metric : Metric) :
    metric.ratingFrom (combine choices) = metric.ratingFrom (choices metric) := by
  apply Metric.ratingFrom_congr
  intro key hkey
  rw [combine, Metric.ofKey_eq hkey]

theorem exists_report_eligible (hothers : OthersPass text rules requirement spec (withReport attached report))
    {choices : Metric → String → Option ℚ} (hchoices : ∀ metric, IsReading text spec report (choices metric)) :
    ∃ report' : DatasheetFactReport, report'.facts.Perm report.facts ∧
      ((assessComponentCandidate text rules requirement spec (withReport attached report')).eligible = true ↔
        ∀ metric : Metric, metric.Fits requirement (metric.ratingFrom (choices metric))) := by
  obtain ⟨report', hperm, hlast⟩ := exists_report_of_isReading text (isReading_combine text hchoices)
  refine ⟨report', hperm, ?_⟩
  rw [eligible_withReport_iff, hlast, and_iff_right ((othersPass_perm text rules hperm).mpr hothers)]
  simp only [ratingFrom_combine]

/-- **When the ratings are kept.** Another check has an error, or no reading of some metric fits, or all readings of
all metrics fit and the operating values are within the maxima. -/
theorem keepsRatings_iff (si : Metric → String → ℚ) (requirement : ComponentSelectionRequirement)
    (spec : ComponentSpec ρ) (attached : ComponentSelectionEvidence φ) (report : DatasheetFactReport) :
    KeepsRatings text rules si requirement spec attached report ↔
      ¬ OthersPass text rules requirement spec (withReport attached report) ∨
      (∃ metric : Metric, ∀ choice, IsReading text spec report choice →
        ¬ metric.Fits requirement (metric.ratingFrom choice)) ∨
      ∀ metric : Metric,
        (∀ choice, IsReading text spec report choice → metric.Fits requirement (metric.ratingFrom choice)) ∧
          metric.Within text si requirement report := by
  constructor
  · intro hkeeps
    by_cases hothers : OthersPass text rules requirement spec (withReport attached report)
    · refine Or.inr (or_iff_not_imp_left.mpr fun hsome => ?_)
      push Not at hsome
      choose choices hchoices hfits using hsome
      -- some order makes the candidate eligible, so every order does
      obtain ⟨report', hperm, heligible⟩ := exists_report_eligible text rules hothers hchoices
      have hreport := (hkeeps.permuted report' hperm).symm.trans (heligible.mpr hfits)
      refine fun metric => ⟨fun choice hchoice => ?_, hkeeps.within hreport metric⟩
      have hupdate : ∀ other, IsReading text spec report (Function.update choices metric choice other) := by
        intro other
        rw [Function.update_apply]
        split
        · exact hchoice
        · exact hchoices other
      obtain ⟨report'', hperm', heligible'⟩ := exists_report_eligible text rules hothers hupdate
      have hfits' := heligible'.mp ((hkeeps.permuted report'' hperm').trans hreport) metric
      rw [Function.update_self] at hfits'
      exact hfits'
    · exact Or.inl hothers
  · intro h
    -- in each of the three cases all orders give one and the same result
    have hlast : ∀ report' : DatasheetFactReport, report'.facts.Perm report.facts →
        IsReading text spec report (lastReading text spec report') := fun report' hperm =>
      (isReading_lastReading text spec report').perm text hperm
    have hnone : (∀ report' : DatasheetFactReport, report'.facts.Perm report.facts →
        ¬ (assessComponentCandidate text rules requirement spec (withReport attached report')).eligible = true) →
        KeepsRatings text rules si requirement spec attached report := by
      intro hnone
      refine ⟨fun heligible => absurd heligible (hnone report (List.Perm.refl _)), fun report' hperm => ?_⟩
      rw [Bool.eq_false_of_not_eq_true (hnone report' hperm),
        Bool.eq_false_of_not_eq_true (hnone report (List.Perm.refl _))]
    rcases h with hothers | ⟨metric, hmetric⟩ | hall
    · refine hnone fun report' hperm heligible => hothers ?_
      exact (othersPass_perm text rules hperm).mp ((eligible_withReport_iff text rules).mp heligible).1
    · refine hnone fun report' hperm heligible => hmetric _ (hlast report' hperm) ?_
      exact ((eligible_withReport_iff text rules).mp heligible).2 metric
    · refine ⟨fun _ metric => (hall metric).2, fun report' hperm => ?_⟩
      rw [Bool.eq_iff_iff, eligible_withReport_iff, eligible_withReport_iff, othersPass_perm text rules hperm]
      apply and_congr_right
      intro _
      exact iff_of_true (fun metric => (hall metric).1 _ (hlast report' hperm))
        fun metric => (hall metric).1 _ (hlast report (List.Perm.refl _))

/-! ## Two rails of one part -/

/-- Texts that are right for the numbers below: whole numbers, and numbers with one decimal. -/
def plainText : PartText where
  str
    | .float q => toString q.floor ++ "." ++ toString (10 * (q - q.floor)).floor
    | _ => ""
  casefold field := field.map Char.toLower
  parseFloat _ := none
  fixed2 q := toString q.floor ++ ".00"
  general6 q := toString q.floor

def openRules : SelectionRules Unit Unit where
  validateFootprintProof _ _ := { blocked := false, error_codes := [] }
  validateGovernedComponent _ :=
    { release_eligible := true, human_review_required := false, trust_tier := .verified }

/-- The factor of a unit with a prefix. -/
def siFactor (_ : Metric) : String → ℚ
  | "uV" | "uA" | "uW" => 1 / 1000000
  | "mV" | "mA" | "mW" => 1 / 1000
  | "kV" | "kA" | "kW" => 1000
  | _ => 1

/-- A recommended maximum of a rail. -/
def railFact (field : String) (volts : ℚ) : DatasheetFact where
  component_id := "dual-rail"
  field := field
  value := .float volts
  unit := "V"
  scope := .recommendedOperating
  confidence := 1
  source := { datasheet_sha256 := "5a" }

/-- The core takes 2.5 V and the pins take 5 V. -/
def twoRails : DatasheetFactReport where
  recommended_operating := [railFact "core_voltage_max" (5 / 2), railFact "io_voltage_max" 5]

def twoRailsSwapped : DatasheetFactReport where
  recommended_operating := [railFact "io_voltage_max" 5, railFact "core_voltage_max" (5 / 2)]

def threeVolts : ComponentSelectionRequirement where
  position := "U1"
  category := "ic"
  operating_voltage_v := some 3

def dualRail : ComponentSpec Unit where
  id := "dual-rail"
  category := "ic"
  governed := ()

/-- At 3 V and a utilization limit of 0.8 the part is eligible, but the core has room for 2 V only, and with the facts
swapped the part is not eligible. -/
theorem not_keepsRatings_twoRails :
    ¬ ((assessComponentCandidate plainText openRules threeVolts dualRail (withReport {} twoRails)).eligible = true →
        ∀ metric : Metric, metric.Within plainText siFactor threeVolts twoRails) ∧
    ¬ ∀ report' : DatasheetFactReport, report'.facts.Perm twoRails.facts →
      (assessComponentCandidate plainText openRules threeVolts dualRail (withReport {} report')).eligible =
        (assessComponentCandidate plainText openRules threeVolts dualRail (withReport {} twoRails)).eligible := by
  have heligible :
      (assessComponentCandidate plainText openRules threeVolts dualRail (withReport {} twoRails)).eligible = true := by
    with_unfolding_all decide
  have hswapped :
      (assessComponentCandidate plainText openRules threeVolts dualRail
        (withReport {} twoRailsSwapped)).eligible = false := by
    with_unfolding_all decide
  have hmaximum : (5 / 2 : ℚ) ∈ governingMaxima plainText siFactor twoRails .voltage := by with_unfolding_all decide
  constructor
  · intro hwithin
    have hle := hwithin heligible .voltage 3 rfl (5 / 2) hmaximum
    rw [show Metric.limit threeVolts .voltage = 4 / 5 from rfl] at hle
    norm_num at hle
  · intro hpermuted
    have heq := hpermuted twoRailsSwapped (List.Perm.swap _ _ [])
    rw [heligible, hswapped] at heq
    cases heq

end ZapTrace.Parts
