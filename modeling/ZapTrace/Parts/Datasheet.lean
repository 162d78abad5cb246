import Mathlib.Data.List.Dedup
import Mathlib.Data.List.Sort
import Mathlib.Data.Prod.Lex
import Mathlib.Data.String.Basic
import Mathlib.Tactic.NormNum
import ZapTrace.Library.Dict
import ZapTrace.Library.PyValue

/-!
# Datasheet facts

A report lists the facts that were read from a datasheet, each with its unit, its scope and the hash of its source. The
validation warns of facts that are not certain and blocks a report with a fact without a hash, or with two facts of one
component, scope and field whose values differ. Numbers are exact.

## Main results

* `validateDatasheetFacts_blocked_iff`: what blocks a report
* `validateDatasheetFacts_blocked_perm`: the order of the facts does not matter
-/

namespace ZapTrace.Parts

open List

/-- The texts of Python that the selection of parts reads and writes. -/
structure PartText where
  /-- `str(value)` -/
  str : PyValue → String
  /-- `str.casefold` -/
  casefold : String → String
  /-- `float(text)`, nothing where it raises -/
  parseFloat : String → Option ℚ
  /-- the format `.2f` -/
  fixed2 : ℚ → String
  /-- the format `.6g` -/
  general6 : ℚ → String

inductive DatasheetFactScope
  | absoluteMaximum | recommendedOperating | pinFunction | package | electricalCharacteristic | thermalCharacteristic
  deriving DecidableEq

namespace DatasheetFactScope

def value : DatasheetFactScope → String
  | absoluteMaximum => "absolute_maximum"
  | recommendedOperating => "recommended_operating"
  | pinFunction => "pin_function"
  | package => "package"
  | electricalCharacteristic => "electrical_characteristic"
  | thermalCharacteristic => "thermal_characteristic"

end DatasheetFactScope

/-- `str | float | int | bool` -/
inductive FactValue
  | str (s : String)
  | float (q : ℚ)
  | int (i : ℤ)
  | bool (b : Bool)

namespace FactValue

def toPyValue : FactValue → PyValue
  | str s => .str s
  | float q => .float q
  | int i => .int i
  | bool b => .bool b

end FactValue

structure DatasheetSourceRef where
  datasheet_sha256 : String

structure DatasheetFact where
  component_id : String
  field : String
  value : FactValue
  unit : String := ""
  scope : DatasheetFactScope
  confidence : ℚ
  source : DatasheetSourceRef

structure DatasheetFactReport where
  absolute_maximum : List DatasheetFact := []
  recommended_operating : List DatasheetFact := []
  other_facts : List DatasheetFact := []

namespace DatasheetFactReport

/-- The property `facts`. -/
def facts (report : DatasheetFactReport) : List DatasheetFact :=
  report.absolute_maximum ++ report.recommended_operating ++ report.other_facts

end DatasheetFactReport

inductive DatasheetDiagnosticSeverity
  | error | warning | info
  deriving DecidableEq

structure DatasheetFactDiagnostic where
  component_id : String
  field : String
  scope : DatasheetFactScope
  severity : DatasheetDiagnosticSeverity
  code : String
  message : String
  source_hashes : List String := []
  values : List String := []
  deriving DecidableEq

structure DatasheetFactValidationReport where
  fact_count : ℕ
  low_confidence_count : ℕ
  conflict_count : ℕ
  missing_hash_count : ℕ
  human_review_required : Bool
  blocked : Bool
  diagnostics : List DatasheetFactDiagnostic

def factKey (fact : DatasheetFact) : String × DatasheetFactScope × String :=
  (fact.component_id, fact.scope, fact.field)

/-- The order of the groups, which is that of the tuples. -/
def factKeyOrder (key : String × DatasheetFactScope × String) : String ×ₗ String ×ₗ String :=
  toLex (key.1, toLex (key.2.1.value, key.2.2))

/-- `sorted(set(texts))` -/
def sortedSet (texts : List String) : List String := texts.dedup.insertionSort (· ≤ ·)

variable (text : PartText)

/-- The findings about one fact. -/
def factDiagnostics (low_confidence_threshold : ℚ) (fact : DatasheetFact) : List DatasheetFactDiagnostic :=
  (if fact.confidence < low_confidence_threshold then
    [{ component_id := fact.component_id
       field := fact.field
       scope := fact.scope
       severity := .warning
       code := "low-confidence"
       message := fact.field ++ " confidence " ++ text.fixed2 fact.confidence ++ " requires human review"
       source_hashes := if fact.source.datasheet_sha256 ≠ "" then [fact.source.datasheet_sha256] else []
       values := [text.str fact.value.toPyValue] }]
  else []) ++
  if fact.source.datasheet_sha256 = "" then
    [{ component_id := fact.component_id
       field := fact.field
       scope := fact.scope
       severity := .error
       code := "missing-datasheet-hash"
       message := fact.field ++ " has no datasheet SHA-256 provenance"
       values := [text.str fact.value.toPyValue] }]
  else []

/-- The finding about the facts of one key. -/
def groupDiagnostic (group : List DatasheetFact) : Option DatasheetFactDiagnostic :=
  let values := group.map fun fact => text.str fact.value.toPyValue
  if values.dedup.length ≤ 1 then none
  else group.head?.map fun first =>
    { component_id := first.component_id
      field := first.field
      scope := first.scope
      severity := .error
      code := "conflicting-facts"
      message := first.field ++ " has conflicting datasheet values: " ++ ", ".intercalate (sortedSet values)
      source_hashes := sortedSet ((group.map fun fact => fact.source.datasheet_sha256).filter (· ≠ ""))
      values := sortedSet values }

/-- `by_key` -/
def factGroups (facts : List DatasheetFact) : Dict (String × DatasheetFactScope × String) (List DatasheetFact) :=
  Dict.groupBy factKey id facts

/-- The list `diagnostics` of `validate_datasheet_facts`. -/
def datasheetFactDiagnostics (facts : List DatasheetFact) (low_confidence_threshold : ℚ) :
    List DatasheetFactDiagnostic :=
  facts.flatMap (factDiagnostics text low_confidence_threshold) ++
    ((factGroups facts).items.insertionSort fun a b => factKeyOrder a.1 ≤ factKeyOrder b.1).filterMap fun item =>
      groupDiagnostic text item.2

def validateDatasheetFacts (report : DatasheetFactReport) (low_confidence_threshold : ℚ := 3 / 5) :
    DatasheetFactValidationReport :=
  let diagnostics := datasheetFactDiagnostics text report.facts low_confidence_threshold
  let count := fun code => diagnostics.countP fun item => item.code = code
  { fact_count := report.facts.length
    low_confidence_count := count "low-confidence"
    conflict_count := count "conflicting-facts"
    missing_hash_count := count "missing-datasheet-hash"
    human_review_required := count "low-confidence" > 0
    blocked := diagnostics.any fun item => item.severity = .error
    diagnostics := diagnostics }

/-! ## What blocks a report -/

theorem exists_error_mem_factDiagnostics_iff (threshold : ℚ) {fact : DatasheetFact} :
    (∃ item ∈ factDiagnostics text threshold fact, item.severity = .error) ↔ fact.source.datasheet_sha256 = "" := by
  unfold factDiagnostics
  constructor
  · rintro ⟨item, hmem, hseverity⟩
    rcases mem_append.mp hmem with hmem | hmem
    · split at hmem
      · obtain rfl := mem_singleton.mp hmem
        cases hseverity
      · cases hmem
    · split at hmem
      next hhash => exact hhash
      next => cases hmem
  · intro hhash
    rw [if_pos hhash]
    exact ⟨_, mem_append_right _ mem_cons_self, rfl⟩

theorem groupDiagnostic_severity {group : List DatasheetFact} {item : DatasheetFactDiagnostic}
    (h : groupDiagnostic text group = some item) : item.severity = .error := by
  unfold groupDiagnostic at h
  dsimp only at h
  split at h
  · cases h
  · obtain ⟨first, -, rfl⟩ := Option.map_eq_some_iff.mp h
    rfl

theorem one_lt_length_dedup_iff {values : List String} :
    1 < values.dedup.length ↔ ∃ a ∈ values, ∃ b ∈ values, a ≠ b := by
  simp only [← mem_dedup (l := values)]
  have hnodup := nodup_dedup values
  generalize values.dedup = distinct at hnodup ⊢
  match distinct, hnodup with
  | [], _ => simp
  | [a], _ => simp
  | a :: b :: rest, hnodup =>
    have hab : a ≠ b := fun heq => (nodup_cons.mp hnodup).1 (heq ▸ mem_cons_self)
    refine iff_of_true ?_ ⟨a, mem_cons_self, b, mem_cons_of_mem a mem_cons_self, hab⟩
    rw [length_cons, length_cons]
    omega

theorem groupDiagnostic_isSome_iff {group : List DatasheetFact} :
    (groupDiagnostic text group).isSome = true ↔
      ∃ fact ∈ group, ∃ fact' ∈ group, text.str fact.value.toPyValue ≠ text.str fact'.value.toPyValue := by
  unfold groupDiagnostic
  dsimp only
  split
  next hle =>
    refine iff_of_false (by simp) ?_
    rintro ⟨fact, hmem, fact', hmem', hne⟩
    refine absurd hle (not_le.mpr (one_lt_length_dedup_iff.mpr ⟨_, mem_map_of_mem hmem, ?_⟩))
    exact ⟨_, mem_map_of_mem hmem', hne⟩
  next hlt =>
    obtain ⟨_, ha, _, hb, hne⟩ := one_lt_length_dedup_iff.mp (not_le.mp hlt)
    obtain ⟨fact, hmem, rfl⟩ := mem_map.mp ha
    obtain ⟨fact', hmem', rfl⟩ := mem_map.mp hb
    refine iff_of_true ?_ ⟨fact, hmem, fact', hmem', hne⟩
    rw [Option.isSome_map, isSome_head?]
    exact ne_nil_of_mem hmem

theorem mem_items_factGroups_iff {facts group : List DatasheetFact}
    {key : String × DatasheetFactScope × String} :
    (key, group) ∈ (factGroups facts).items ↔ group ≠ [] ∧ group = facts.filter fun fact => factKey fact = key := by
  rw [← Dict.get?_eq_some_iff, factGroups, Dict.get?_groupBy, map_id]
  split
  next hempty =>
    rw [hempty]
    exact iff_of_false (by simp) fun ⟨hne, heq⟩ => hne heq
  next hne =>
    constructor
    · intro h
      obtain rfl := Option.some.inj h
      exact ⟨hne, rfl⟩
    · rintro ⟨-, rfl⟩
      rfl

/-- A report is blocked when a fact has no hash, or when two facts of a component, a scope and a field differ. -/
theorem validateDatasheetFacts_blocked_iff {report : DatasheetFactReport} {threshold : ℚ} :
    (validateDatasheetFacts text report threshold).blocked = true ↔
      (∃ fact ∈ report.facts, fact.source.datasheet_sha256 = "") ∨
        ∃ fact ∈ report.facts, ∃ fact' ∈ report.facts,
          factKey fact = factKey fact' ∧ text.str fact.value.toPyValue ≠ text.str fact'.value.toPyValue := by
  show (datasheetFactDiagnostics text report.facts threshold).any (fun item => item.severity = .error) = true ↔ _
  rw [any_eq_true]
  simp only [decide_eq_true_eq, datasheetFactDiagnostics, mem_append, or_and_right, exists_or]
  apply or_congr
  · -- what is said about single facts
    constructor
    · rintro ⟨item, hmem, hseverity⟩
      obtain ⟨fact, hfact, hitem⟩ := mem_flatMap.mp hmem
      exact ⟨fact, hfact, (exists_error_mem_factDiagnostics_iff text threshold).mp ⟨item, hitem, hseverity⟩⟩
    · rintro ⟨fact, hfact, hhash⟩
      obtain ⟨item, hitem, hseverity⟩ :=
        (exists_error_mem_factDiagnostics_iff text threshold).mpr hhash
      exact ⟨item, mem_flatMap.mpr ⟨fact, hfact, hitem⟩, hseverity⟩
  · -- what is said about the groups
    constructor
    · rintro ⟨item, hmem, -⟩
      obtain ⟨⟨key, group⟩, hgroup, hitem⟩ := mem_filterMap.mp hmem
      rw [(perm_insertionSort _ _).mem_iff, mem_items_factGroups_iff] at hgroup
      obtain ⟨-, rfl⟩ := hgroup
      obtain ⟨fact, hfact, fact', hfact', hne⟩ :=
        (groupDiagnostic_isSome_iff text).mp (Option.isSome_of_eq_some hitem)
      obtain ⟨hfact, hkey⟩ := mem_filter.mp hfact
      obtain ⟨hfact', hkey'⟩ := mem_filter.mp hfact'
      exact ⟨fact, hfact, fact', hfact', (of_decide_eq_true hkey).trans (of_decide_eq_true hkey').symm, hne⟩
    · rintro ⟨fact, hfact, fact', hfact', hkey, hne⟩
      have hmem : fact ∈ report.facts.filter fun other => factKey other = factKey fact :=
        mem_filter.mpr ⟨hfact, decide_eq_true rfl⟩
      have hmem' : fact' ∈ report.facts.filter fun other => factKey other = factKey fact :=
        mem_filter.mpr ⟨hfact', decide_eq_true hkey.symm⟩
      obtain ⟨item, hitem⟩ := Option.isSome_iff_exists.mp
        ((groupDiagnostic_isSome_iff text).mpr ⟨fact, hmem, fact', hmem', hne⟩)
      refine ⟨item, mem_filterMap.mpr ⟨(factKey fact, _), ?_, hitem⟩, groupDiagnostic_severity text hitem⟩
      rw [(perm_insertionSort _ _).mem_iff, mem_items_factGroups_iff]
      exact ⟨ne_nil_of_mem hmem, rfl⟩

theorem validateDatasheetFacts_blocked_perm {report report' : DatasheetFactReport}
    (h : report'.facts.Perm report.facts) (threshold : ℚ) :
    (validateDatasheetFacts text report' threshold).blocked =
      (validateDatasheetFacts text report threshold).blocked := by
  rw [Bool.eq_iff_iff, validateDatasheetFacts_blocked_iff, validateDatasheetFacts_blocked_iff]
  simp only [h.mem_iff]

end ZapTrace.Parts
