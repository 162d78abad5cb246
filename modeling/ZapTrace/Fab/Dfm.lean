import Mathlib.Tactic.Tauto
import ZapTrace.Core.Routing

/-!
# Spacing checks of a fab profile

`DFMChecker` compares the routing with what a manufacturer can make. Its spacing check passes over pairs
of traces whose boxes are apart, and measures the others between the middle lines: the distance is zero when
the segments meet, and otherwise that of an end to the other segment. So it measures the true distance. But
it takes all layers together and does not take off the widths.

## Main results

* `segmentDistance_atLeast_iff`: the distance is the true one
* `isSome_traceClearanceViolation_iff`: which pairs the spacing check reports
* `checkClearances_exact_iff`: when it reports exactly the pairs with too little space
-/

set_option linter.unusedSectionVars false

namespace ZapTrace.Routing.Dfm

open Plane

structure DFMViolation where
  rule_id : String
  severity : String
  message : String
  location : String := ""
  actual : String := ""
  expected : String := ""
  deriving DecidableEq

/-- What a manufacturer can make, as far as routing is concerned. -/
structure FabProfile (K : Type) where
  min_space_mm : K
  min_annular_ring_mm : K
  min_solder_mask_sliver_mm : K

variable {K : Type} [Field K] [LinearOrder K]

/-! ## Boxes -/

structure TraceBBox (K : Type) where
  left : K
  top : K
  right : K
  bottom : K

def expandedTraceBbox (trace : TraceSegment K) (margin : K) : TraceBBox K where
  left := min trace.start.1 trace.stop.1 - margin
  top := min trace.start.2 trace.stop.2 - margin
  right := max trace.start.1 trace.stop.1 + margin
  bottom := max trace.start.2 trace.stop.2 + margin

def bboxOverlaps (first second : TraceBBox K) : Prop :=
  ¬ (first.right < second.left ∨ second.right < first.left ∨
    first.bottom < second.top ∨ second.bottom < first.top)

instance (first second : TraceBBox K) : Decidable (bboxOverlaps first second) :=
  inferInstanceAs (Decidable (¬ _))

/-! ## Distances -/

/-- Two segments meet, ends included. -/
def segmentsIntersect (a b c d : Point K) : Prop :=
  let o1 := orient a b c
  let o2 := orient a b d
  let o3 := orient c d a
  let o4 := orient c d b
  (o1 = 0 ∧ InBox a c b) ∨ (o2 = 0 ∧ InBox a d b) ∨ (o3 = 0 ∧ InBox c a d) ∨ (o4 = 0 ∧ InBox c b d) ∨
    (Straddles o1 o2 ∧ Straddles o3 o4)

instance (a b c d : Point K) : Decidable (segmentsIntersect a b c d) :=
  inferInstanceAs (Decidable (_ ∨ _))

def pointSegmentDist (p a b : Point K) : K :=
  let dx := b.1 - a.1
  let dy := b.2 - a.2
  if dx = 0 ∧ dy = 0 then distSq p a
  else
    let t := clamp (((p.1 - a.1) * dx + (p.2 - a.2) * dy) / (dx * dx + dy * dy))
    distSq p (a.1 + t * dx, a.2 + t * dy)

def segmentDistance (s1 s2 : TraceSegment K) : K :=
  let a := s1.start
  let b := s1.stop
  let c := s2.start
  let d := s2.stop
  if segmentsIntersect a b c d then 0
  else
    min (min (min (pointSegmentDist a c d) (pointSegmentDist b c d)) (pointSegmentDist c a b))
      (pointSegmentDist d a b)

/-! ## The checks -/

/-- Both traces have a net, and it is one. -/
def SameNet (first second : TraceSegment K) : Prop :=
  first.net_id ≠ "" ∧ second.net_id ≠ "" ∧ first.net_id = second.net_id

instance (first second : TraceSegment K) : Decidable (SameNet first second) :=
  inferInstanceAs (Decidable (_ ∧ _))

variable (fmt : Format K)

/-- `net_id or '?'` -/
def netLabel (net_id : String) : String := if net_id = "" then "?" else net_id

def clearanceViolation (first second : TraceSegment K) (min_space : K) : Option DFMViolation :=
  if SameNet first second then none
  else
    let distance := Gap.mk (segmentDistance first second) 0
    if distance.AtLeast min_space then none
    else
      some
        { rule_id := "clearance"
          severity := "error"
          message := s!"Clearance {fmt.gap3 distance}mm below minimum {fmt.fixed3 min_space}mm"
          location := s!"{netLabel first.net_id} / {netLabel second.net_id}"
          actual := s!"{fmt.gap3 distance}mm"
          expected := s!">= {fmt.fixed3 min_space}mm" }

/-- The spacing check of one pair. -/
def traceClearanceViolation (min_space : K) (first second : TraceSegment K) : Option DFMViolation :=
  if bboxOverlaps (expandedTraceBbox first min_space) (expandedTraceBbox second min_space) then
    clearanceViolation fmt first second min_space
  else none

def traceClearanceViolations (traces : List (TraceSegment K)) (min_space : K) : List DFMViolation :=
  (tracePairs traces).filterMap fun pair => traceClearanceViolation fmt min_space pair.1 pair.2

def canonicalTraces (design : Design K) : List (TraceSegment K) :=
  match design.routing with
  | none => []
  | some routing => (canonicalRoutingNetIds design.nets routing).traces

def checkClearances (profile : FabProfile K) (design : Design K) : List DFMViolation :=
  traceClearanceViolations fmt (canonicalTraces design) profile.min_space_mm

/-- The check of the annular ring of the trace at an index. -/
def annularRingViolation (min_ring : K) (seg : TraceSegment K) (i : ℕ) : Option DFMViolation :=
  if seg.via then
    let ring := (seg.via_diameter - seg.via_hole) / 2
    if ring < min_ring then
      some
        { rule_id := "annular-ring"
          severity := "error"
          message := s!"Annular ring {fmt.fixed3 ring}mm below minimum {fmt.fixed3 min_ring}mm"
          location := s!"{seg.net_id} seg#{i}"
          actual := s!"{fmt.fixed3 ring}mm"
          expected := s!">= {fmt.fixed3 min_ring}mm" }
    else none
  else none

def checkAnnularRing (profile : FabProfile K) (design : Design K) : List DFMViolation :=
  match design.routing with
  | none => []
  | some routing => routing.traces.zipIdx.filterMap fun (seg, i) =>
    annularRingViolation fmt profile.min_annular_ring_mm seg i

/-! ## What is measured -/

/-- The middle lines of two traces are `c` apart. -/
def Apart (c : K) (first second : TraceSegment K) : Prop :=
  ∀ x ∈ segment K first.start first.stop, ∀ y ∈ segment K second.start second.stop, AtLeast (distSq x y) c

/-- Two traces on one layer, not of one net, with less than `min_space` between the edges of their copper. -/
def SpacingViolated (min_space : K) (first second : TraceSegment K) : Prop :=
  first.layer = second.layer ∧ ¬ SameNet first second ∧
    ¬ Apart (min_space + (first.width + second.width) / 2) first second

/-- The spacing check decides a pair as it should: the traces are of one net; or they are on one layer, and
taking off the widths does not matter; or they are on two layers, and far apart all the same. -/
def PlainSpacing (min_space : K) (first second : TraceSegment K) : Prop :=
  SameNet first second ∨
    (first.layer = second.layer ∧
      (Apart min_space first second ↔ Apart (min_space + (first.width + second.width) / 2) first second)) ∨
    (first.layer ≠ second.layer ∧ Apart min_space first second)

variable [IsStrictOrderedRing K]

theorem segmentsIntersect_iff (a b c d : Point K) :
    segmentsIntersect a b c d ↔ ∃ x ∈ segment K a b, x ∈ segment K c d := by
  rw [meet_iff]
  simp only [mem_segment_iff_orient, segmentsIntersect, or_assoc]

theorem pointSegmentDist_eq (p a b : Point K) : pointSegmentDist p a b = pointSegmentDistSq p a b := by
  rw [pointSegmentDist, pointSegmentDistSq, nearest]
  split
  · -- the segment is a point
    rename_i hzero
    simp [along, hzero.1, hzero.2]
  · rfl

/-- **The distance** is the true one. -/
theorem segmentDistance_atLeast_iff (first second : TraceSegment K) (c : K) :
    AtLeast (segmentDistance first second) c ↔ Apart c first second := by
  unfold segmentDistance Apart
  simp only [pointSegmentDist_eq]
  split
  · -- the distance is zero at a common point
    rename_i hmeet
    obtain ⟨x, hx, hx'⟩ := (segmentsIntersect_iff _ _ _ _).mp hmeet
    constructor
    · intro h y _ z _
      exact h.mono (distSq_nonneg y z)
    · intro h
      have hself : distSq x x = 0 := by simp [distSq]
      exact hself ▸ h x hx x hx'
  · rename_i hmeet
    have hdisjoint : ∀ x ∈ segment K first.start first.stop, x ∉ segment K second.start second.stop :=
      fun x hx hx' => hmeet ((segmentsIntersect_iff _ _ _ _).mpr ⟨x, hx, hx'⟩)
    constructor
    · intro h x hx y hy
      exact h.mono (endDistSq_le_distSq hdisjoint hx hy)
    · intro h
      obtain ⟨x, hx, y, hy, heq⟩ :=
        exists_endDistSq first.start first.stop second.start second.stop
      show AtLeast (endDistSq _ _ _ _) c
      exact heq ▸ h x hx y hy

theorem lt_of_sq_add_sq_lt {u v c : K} (hc : 0 < c) (h : u ^ 2 + v ^ 2 < c ^ 2) : |u| < c ∧ |v| < c :=
  ⟨abs_lt_of_sq_lt_sq (by nlinarith [sq_nonneg v]) hc.le, abs_lt_of_sq_lt_sq (by nlinarith [sq_nonneg u]) hc.le⟩

/-- **The boxes** of traces that are too close overlap: the first check hides no pair. -/
theorem bboxOverlaps_of_not_apart {m : K} {first second : TraceSegment K} (h : ¬ Apart m first second) :
    bboxOverlaps (expandedTraceBbox first m) (expandedTraceBbox second m) := by
  obtain ⟨x, hx, y, hy, hclose⟩ : ∃ x ∈ segment K first.start first.stop,
      ∃ y ∈ segment K second.start second.stop, ¬ AtLeast (distSq x y) m := by
    simpa only [Apart, not_forall, exists_prop] using h
  obtain ⟨hm, hlt⟩ := not_or.mp hclose
  obtain ⟨hdx, hdy⟩ := lt_of_sq_add_sq_lt (not_le.mp hm) (not_le.mp hlt)
  obtain ⟨⟨hx1, hx2⟩, hx3, hx4⟩ := inBox_of_mem hx
  obtain ⟨⟨hy1, hy2⟩, hy3, hy4⟩ := inBox_of_mem hy
  rw [abs_lt] at hdx hdy
  simp only [bboxOverlaps, expandedTraceBbox, not_or, not_lt]
  refine ⟨?_, ?_, ?_, ?_⟩ <;> linarith

/-- **Which pairs are reported**: those not of one net whose middle lines are too close, on any layers. -/
theorem isSome_traceClearanceViolation_iff (m : K) (first second : TraceSegment K) :
    (traceClearanceViolation fmt m first second).isSome ↔ ¬ SameNet first second ∧ ¬ Apart m first second := by
  have hdistance : (Gap.mk (segmentDistance first second) 0).AtLeast m ↔ Apart m first second := by
    rw [← segmentDistance_atLeast_iff, Gap.AtLeast, add_zero]
  by_cases hapart : Apart m first second
  · -- nothing is reported, whether the boxes overlap or not
    simp [traceClearanceViolation, clearanceViolation, hdistance, hapart]
  · have hboxes := bboxOverlaps_of_not_apart hapart
    by_cases hnet : SameNet first second <;>
      simp [traceClearanceViolation, clearanceViolation, hdistance, hapart, hboxes, hnet]

/-- **The spacing check is right** about the pairs where neither the layers nor the widths matter, and
wrong about all others. -/
theorem checkClearances_exact_iff (profile : FabProfile K) (design : Design K) :
    checkClearances fmt profile design =
        (tracePairs (canonicalTraces design)).filterMap (fun pair =>
          traceClearanceViolation fmt profile.min_space_mm pair.1 pair.2) ∧
      ∀ pair ∈ tracePairs (canonicalTraces design),
        (((traceClearanceViolation fmt profile.min_space_mm pair.1 pair.2).isSome ↔
            SpacingViolated profile.min_space_mm pair.1 pair.2) ↔
          PlainSpacing profile.min_space_mm pair.1 pair.2) := by
  refine ⟨rfl, fun pair _ => ?_⟩
  rw [isSome_traceClearanceViolation_iff]
  unfold SpacingViolated PlainSpacing
  by_cases hnet : SameNet pair.1 pair.2
  · simp [hnet]
  · by_cases hlayer : pair.1.layer = pair.2.layer
    · simp [hnet, hlayer, not_iff_not]
    · simp [hnet, hlayer]

def twoLayerProfile : FabProfile ℚ where
  min_space_mm := 3 / 20
  min_annular_ring_mm := 13 / 100
  min_solder_mask_sliver_mm := 1 / 10

/-- Two traces whose copper overlaps. -/
def overlappingBoard : Design ℚ :=
  boardOf [traceOf "top" "A" 1 (0, 0) (10, 0), traceOf "top" "B" 1 (0, 1 / 2) (10, 1 / 2)]

-- for `decide` below
attribute [local semireducible] Rat.add Rat.sub Rat.mul Rat.inv

/-- The copper of two nets overlaps on one layer, and there is no error. -/
theorem not_checkClearances_exact_overlappingBoard :
    ¬ ∀ pair ∈ tracePairs (canonicalTraces overlappingBoard),
      ((traceClearanceViolation plainFormat twoLayerProfile.min_space_mm pair.1 pair.2).isSome ↔
        SpacingViolated twoLayerProfile.min_space_mm pair.1 pair.2) := by
  intro hexact
  have hpair := hexact (traceOf "top" "A" 1 (0, 0) (10, 0), traceOf "top" "B" 1 (0, 1 / 2) (10, 1 / 2))
    (by decide)
  have hsilent : ¬ (traceClearanceViolation plainFormat twoLayerProfile.min_space_mm
      (traceOf "top" "A" 1 (0, 0) (10, 0)) (traceOf "top" "B" 1 (0, 1 / 2) (10, 1 / 2))).isSome := by
    decide
  refine hsilent (hpair.mpr ⟨rfl, by decide, fun happart => ?_⟩)
  -- the starts are half a millimetre apart
  have hstart := happart (0, 0) (left_mem_segment ℚ _ _) (0, 1 / 2) (left_mem_segment ℚ _ _)
  revert hstart
  decide

/-- Two traces that start at one point. -/
def touchingBoard : Design ℚ :=
  boardOf [traceOf "top" "A" 1 (0, 0) (10, 0), traceOf "top" "B" 1 (0, 0) (0, 5)]

/-- The middle lines touch, so the widths do not matter. -/
theorem checkClearances_exact_touchingBoard :
    (traceClearanceViolation plainFormat twoLayerProfile.min_space_mm
        (traceOf "top" "A" 1 (0, 0) (10, 0)) (traceOf "top" "B" 1 (0, 0) (0, 5))).isSome ↔
      SpacingViolated twoLayerProfile.min_space_mm
        (traceOf "top" "A" 1 (0, 0) (10, 0)) (traceOf "top" "B" 1 (0, 0) (0, 5)) := by
  refine ((checkClearances_exact_iff plainFormat twoLayerProfile touchingBoard).2
    (traceOf "top" "A" 1 (0, 0) (10, 0), traceOf "top" "B" 1 (0, 0) (0, 5)) (by decide)).mpr ?_
  have htouch : ∀ c : ℚ, ¬ AtLeast (distSq (0, 0) (0, 0)) c →
      ¬ Apart c (traceOf "top" "A" 1 (0, 0) (10, 0)) (traceOf "top" "B" 1 (0, 0) (0, 5)) := by
    intro c hc happart
    exact hc (happart _ (left_mem_segment ℚ _ _) _ (left_mem_segment ℚ _ _))
  exact .inr (.inl ⟨rfl, iff_of_false (htouch _ (by decide)) (htouch _ (by decide))⟩)

end ZapTrace.Routing.Dfm
