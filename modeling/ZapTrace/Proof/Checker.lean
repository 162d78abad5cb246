import Mathlib.Tactic.NormNum
import ZapTrace.Fab.Dfm

/-!
# The clearance check of a proof pack

`ProofRunner` runs checks on a design and collects their results. Its clearance check measures every two traces
that are not of one net, on whatever layers: the distance is the least one of an end of one trace to the middle
line of the other. So it does not see that two traces cross, it does not take off the widths, and it compares
traces on different layers.

## Main results

* `checkClearance_pass_iff`: the check passes when no end of a trace is near a trace of another net
* `passes_exactly_iff`: it passes exactly the designs it should, when what it misses and what it should not
  see make no difference
-/

set_option linter.unusedSectionVars false

namespace ZapTrace.Proof

open Plane Routing

inductive CheckStatus
  | pass | fail | error | skip
  deriving DecidableEq

inductive CheckSeverity
  | critical | error | warning | info
  deriving DecidableEq

/-- The parameters that the clearance check reads. -/
structure CheckParams (K : Type) where
  min_clearance_mm : Option K := none

structure CheckDefinition (K : Type) where
  name : String
  type : String
  severity : CheckSeverity := .error
  params : CheckParams K := {}
  expected_count : Option ℤ := none

/-- A pair of traces that the clearance check reports. -/
structure ClearanceViolation (K : Type) where
  trace1 : String
  trace2 : String
  distance_mm : K
  min_clearance_mm : K
  deriving DecidableEq

structure ClearanceDetails (K : Type) where
  violations : List (ClearanceViolation K)
  min_clearance_mm : K

structure CheckResult (K : Type) (D : Type) where
  check : CheckDefinition K
  status : CheckStatus
  message : String := ""
  details : D

/-- How a distance of which the square is given is rounded to four digits, and how a number is written. -/
structure Format (K : Type) where
  round4 : K → K
  shown : K → String

variable {K : Type} [Field K] [LinearOrder K]

/-! ## The check -/

def pointSegmentDist (p a b : Point K) : K :=
  let dx := b.1 - a.1
  let dy := b.2 - a.2
  if dx = 0 ∧ dy = 0 then (p.1 - a.1) ^ 2 + (p.2 - a.2) ^ 2
  else
    let t := max 0 (min 1 (((p.1 - a.1) * dx + (p.2 - a.2) * dy) / (dx * dx + dy * dy)))
    let proj_x := a.1 + t * dx
    let proj_y := a.2 + t * dy
    (p.1 - proj_x) ^ 2 + (p.2 - proj_y) ^ 2

/-- The squared distance of two traces, from the four ends. -/
def traceDistance (t1 t2 : Routing.TraceSegment K) : K :=
  let a := t1.start
  let b := t1.stop
  let c := t2.start
  let d := t2.stop
  min (min (min (pointSegmentDist a c d) (pointSegmentDist b c d)) (pointSegmentDist c a b)) (pointSegmentDist d a b)

variable (fmt : Format K)

/-- The check of one pair: traces of one net are skipped. -/
def clearanceViolation (min_clearance : K) (t1 t2 : Routing.TraceSegment K) : Option (ClearanceViolation K) :=
  if Dfm.SameNet t1 t2 then none
  else if AtLeast (traceDistance t1 t2) min_clearance then none
  else some ⟨t1.net_id, t2.net_id, fmt.round4 (traceDistance t1 t2), min_clearance⟩

def tracesOf (design : Design K) : List (Routing.TraceSegment K) :=
  match design.routing with
  | none => []
  | some routing => routing.traces

def findClearanceViolations (design : Design K) (min_clearance : K) : List (ClearanceViolation K) :=
  (tracePairs (tracesOf design)).filterMap fun pair => clearanceViolation fmt min_clearance pair.1 pair.2

/-- `check.params.get("min_clearance_mm", 0.15)` -/
def CheckDefinition.minClearance (check : CheckDefinition K) : K := check.params.min_clearance_mm.getD (15 / 100)

def checkClearance (design : Design K) (check : CheckDefinition K) : CheckResult K (ClearanceDetails K) :=
  let min_c := check.minClearance
  let violations := findClearanceViolations fmt design min_c
  { check := check
    status := if violations = [] then .pass else .fail
    message :=
      if violations = [] then s!"All clearances >= {fmt.shown min_c}mm"
      else s!"{violations.length} clearance violations"
    details := ⟨violations, min_c⟩ }

/-! ## What the check should see -/

/-- Every two traces on one layer that are not of one net keep a gap of `m` between the edges of their copper. -/
def KeepsClearance (design : Design K) (m : K) : Prop :=
  (tracesOf design).Pairwise fun t1 t2 => ¬ Dfm.SpacingViolated m t1 t2

/-- An end of one trace is nearer than `m` to the middle line of the other. -/
def EndNear (m : K) (t1 t2 : Routing.TraceSegment K) : Prop :=
  (∃ p, (p = t1.start ∨ p = t1.stop) ∧ ∃ x ∈ segment K t2.start t2.stop, ¬ AtLeast (distSq p x) m) ∨
    ∃ p, (p = t2.start ∨ p = t2.stop) ∧ ∃ x ∈ segment K t1.start t1.stop, ¬ AtLeast (distSq p x) m

/-- Two traces on one layer that are not of one net are too close, but no end of one is near the other: they
cross, or their middle lines are far enough apart. -/
def Missed (m : K) (t1 t2 : Routing.TraceSegment K) : Prop := Dfm.SpacingViolated m t1 t2 ∧ ¬ EndNear m t1 t2

/-- Two traces that are not of one net have an end near the other, but are not too close: they are on different
layers, or their widths are negative. -/
def FalseAlarm (m : K) (t1 t2 : Routing.TraceSegment K) : Prop :=
  ¬ Dfm.SameNet t1 t2 ∧ EndNear m t1 t2 ∧ ¬ Dfm.SpacingViolated m t1 t2

/-- Whenever two traces are missed, two others that are not of one net have an end near; whenever two traces are a
false alarm, two others are too close. -/
structure Outweighed (design : Design K) (m : K) : Prop where
  missed : ∀ pair ∈ tracePairs (tracesOf design), Missed m pair.1 pair.2 →
    ∃ other ∈ tracePairs (tracesOf design), ¬ Dfm.SameNet other.1 other.2 ∧ EndNear m other.1 other.2
  false_alarm : ∀ pair ∈ tracePairs (tracesOf design), FalseAlarm m pair.1 pair.2 →
    ∃ other ∈ tracePairs (tracesOf design), Dfm.SpacingViolated m other.1 other.2

variable [IsStrictOrderedRing K]

theorem pointSegmentDist_eq (p a b : Point K) : pointSegmentDist p a b = pointSegmentDistSq p a b := by
  rw [← Dfm.pointSegmentDist_eq]
  unfold pointSegmentDist Dfm.pointSegmentDist clamp distSq
  dsimp only
  split <;> ring

theorem exists_near_iff {p a b : Point K} {m : K} :
    (∃ x ∈ segment K a b, ¬ AtLeast (distSq p x) m) ↔ ¬ AtLeast (pointSegmentDistSq p a b) m := by
  constructor
  · rintro ⟨x, hx, hnear⟩ hfar
    exact hnear (hfar.mono (distSq_nearest_le hx))
  · intro hnear
    exact ⟨nearest p a b, nearest_mem p a b, hnear⟩

theorem atLeast_min_iff {n n' m : K} : AtLeast (min n n') m ↔ AtLeast n m ∧ AtLeast n' m := by
  unfold AtLeast
  rw [le_min_iff]
  constructor
  · rintro (h | ⟨h, h'⟩)
    · exact ⟨Or.inl h, Or.inl h⟩
    · exact ⟨Or.inr h, Or.inr h'⟩
  · rintro ⟨h | h, h' | h'⟩
    · exact Or.inl h
    · exact Or.inl h
    · exact Or.inl h'
    · exact Or.inr ⟨h, h'⟩

/-- **What the check measures**: whether an end of one trace is near the other. -/
theorem traceDistance_atLeast_iff (t1 t2 : Routing.TraceSegment K) (m : K) :
    AtLeast (traceDistance t1 t2) m ↔ ¬ EndNear m t1 t2 := by
  unfold traceDistance EndNear
  simp only [atLeast_min_iff, pointSegmentDist_eq, exists_near_iff, or_and_right, exists_or,
    exists_eq_left, not_or, not_not, and_assoc]

theorem clearanceViolation_eq_none_iff {m : K} {t1 t2 : Routing.TraceSegment K} :
    clearanceViolation fmt m t1 t2 = none ↔ ¬ (¬ Dfm.SameNet t1 t2 ∧ EndNear m t1 t2) := by
  unfold clearanceViolation
  by_cases hnet : Dfm.SameNet t1 t2
  · simp [hnet]
  · by_cases hfar : AtLeast (traceDistance t1 t2) m
    · have hend := (traceDistance_atLeast_iff t1 t2 m).mp hfar
      simp [hnet, hfar, hend]
    · have hend : EndNear m t1 t2 := not_not.mp fun h => hfar ((traceDistance_atLeast_iff t1 t2 m).mpr h)
      simp [hnet, hfar, hend]

/-- **The check passes** when no end of a trace is near a trace of another net, on any layers. -/
theorem checkClearance_pass_iff (design : Design K) (check : CheckDefinition K) :
    (checkClearance fmt design check).status = .pass ↔
      ∀ pair ∈ tracePairs (tracesOf design),
        ¬ (¬ Dfm.SameNet pair.1 pair.2 ∧ EndNear check.minClearance pair.1 pair.2) := by
  have hnil : findClearanceViolations fmt design check.minClearance = [] ↔
      ∀ pair ∈ tracePairs (tracesOf design), clearanceViolation fmt check.minClearance pair.1 pair.2 = none :=
    List.filterMap_eq_nil_iff
  simp only [checkClearance, clearanceViolation_eq_none_iff] at hnil ⊢
  rw [← hnil]
  by_cases hviolations : findClearanceViolations fmt design check.minClearance = [] <;> simp [hviolations]

theorem keepsClearance_iff (design : Design K) (m : K) :
    KeepsClearance design m ↔ ∀ pair ∈ tracePairs (tracesOf design), ¬ Dfm.SpacingViolated m pair.1 pair.2 :=
  forall_tracePairs_iff.symm

/-- **The check is right** about the designs in which what it misses is outweighed by something that it sees, and
what it should not see by something that is too close. -/
theorem passes_exactly_iff (design : Design K) (check : CheckDefinition K) :
    ((checkClearance fmt design check).status = .pass ↔ KeepsClearance design check.minClearance) ↔
      Outweighed design check.minClearance := by
  rw [checkClearance_pass_iff, keepsClearance_iff]
  constructor
  · intro h
    constructor
    · intro pair hpair hmissed
      -- the check would pass, and it must not
      by_contra hnone
      exact (h.mp fun other hother hnear => hnone ⟨other, hother, hnear⟩) pair hpair hmissed.1
    · intro pair hpair halarm
      by_contra hnone
      exact (h.mpr fun other hother hclose => hnone ⟨other, hother, hclose⟩) pair hpair ⟨halarm.1, halarm.2.1⟩
  · intro h
    constructor
    · intro hpass pair hpair hclose
      by_cases hend : EndNear check.minClearance pair.1 pair.2
      · exact hpass pair hpair ⟨hclose.2.1, hend⟩
      · obtain ⟨other, hother, hnear⟩ := h.missed pair hpair ⟨hclose, hend⟩
        exact hpass other hother hnear
    · intro hkeeps pair hpair hnear
      by_cases hclose : Dfm.SpacingViolated check.minClearance pair.1 pair.2
      · exact hkeeps pair hpair hclose
      · obtain ⟨other, hother, hclose'⟩ := h.false_alarm pair hpair ⟨hnear.1, hnear.2, hclose⟩
        exact hkeeps other hother hclose'

/-! ## Two nets that cross -/

def defaultClearance : CheckDefinition ℚ where
  name := "clear"
  type := "clearance"

def plainFormat : Format ℚ := ⟨id, fun _ => "0.15"⟩

/-- Two traces that cross in the middle, on one layer. -/
def crossedBoard : Design ℚ :=
  boardOf [traceOf "top" "A" (1 / 5) (0, 5) (10, 5), traceOf "top" "B" (1 / 5) (5, 0) (5, 10)]

theorem passes_exactly_iff_crossedBoard :
    ((checkClearance plainFormat crossedBoard defaultClearance).status = .pass ↔
        KeepsClearance crossedBoard defaultClearance.minClearance) ↔
      Outweighed crossedBoard defaultClearance.minClearance :=
  passes_exactly_iff plainFormat crossedBoard defaultClearance

/-- The traces of two nets cross, and the check passes. -/
theorem not_exact_crossedBoard :
    ¬ ((checkClearance plainFormat crossedBoard defaultClearance).status = .pass ↔
      KeepsClearance crossedBoard defaultClearance.minClearance) := by
  intro hexact
  have hpass : (checkClearance plainFormat crossedBoard defaultClearance).status = .pass := by with_unfolding_all decide
  have hkeeps := (keepsClearance_iff _ _).mp (hexact.mp hpass)
  refine hkeeps (traceOf "top" "A" (1 / 5) (0, 5) (10, 5), traceOf "top" "B" (1 / 5) (5, 0) (5, 10))
    (by with_unfolding_all decide) ⟨rfl, by decide, fun hapart => ?_⟩
  -- both middle lines go through one point
  have hfirst : ((5, 5) : ℚ × ℚ) ∈ segment ℚ (0, 5) (10, 5) :=
    ⟨1 / 2, 1 / 2, by norm_num, by norm_num, by norm_num, by
      simp only [Prod.smul_mk, Prod.mk_add_mk, smul_eq_mul]
      norm_num⟩
  have hsecond : ((5, 5) : ℚ × ℚ) ∈ segment ℚ (5, 0) (5, 10) :=
    ⟨1 / 2, 1 / 2, by norm_num, by norm_num, by norm_num, by
      simp only [Prod.smul_mk, Prod.mk_add_mk, smul_eq_mul]
      norm_num⟩
  have hcommon := hapart _ hfirst _ hsecond
  revert hcommon
  with_unfolding_all decide

end ZapTrace.Proof
