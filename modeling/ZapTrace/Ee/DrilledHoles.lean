import Mathlib.Tactic.Linarith
import ZapTrace.Ee.Drc
import ZapTrace.Export.Drill
import ZapTrace.Fab.Dfm

/-!
# Which holes the rules see

A via is a record of the routing or a mark on a trace, and some importers write both. Holes are drilled
for the records, for pads and for mounting holes. The rules on the number and the rings of vias
look at marked traces only; the rule on the space between holes looks at both kinds of vias, and at no
pad and no mounting hole. Here is what of this matters for the verdict of a board.

## Main results

* `holesCovered_iff`: the rules are complete on no other boards
-/

set_option linter.unusedSectionVars false

namespace ZapTrace.Routing.Drc

open Plane Excellon List

variable {K : Type} [Field K] [LinearOrder K]

def traceVia (segment : TraceSegment K) : Via K where
  x := segment.start.1
  y := segment.start.2
  diameter := segment.via_diameter
  hole := segment.via_hole
  net_id := some segment.net_id

/-- A record and a marked trace stand for one via: it is at one place with the same dimensions, and the
net agrees when the record has one. -/
def SameVia (via : Via K) (segment : TraceSegment K) : Prop :=
  segment.start = (via.x, via.y) ∧ segment.via_diameter = via.diameter ∧ segment.via_hole = via.hole ∧
    ∀ net_id ∈ via.net_id, segment.net_id = net_id

instance (via : Via K) (segment : TraceSegment K) : Decidable (SameVia via segment) :=
  inferInstanceAs (Decidable (_ ∧ _))

/-- The record is marked on a trace as well. -/
def Marked (routing : RouteResult K) (via : Via K) : Prop :=
  ∃ segment ∈ flaggedTraces routing, SameVia via segment

instance (routing : RouteResult K) (via : Via K) : Decidable (Marked routing via) :=
  inferInstanceAs (Decidable (∃ _ ∈ _, _))

/-- The vias that are a record only. -/
def unmarkedVias (routing : RouteResult K) : List (Via K) :=
  routing.vias.filter fun via => ¬ Marked routing via

def routedVias (routing : RouteResult K) : List (Via K) :=
  (flaggedTraces routing).map traceVia ++ unmarkedVias routing

/-- The wall between two holes is as thick as the rule asks. -/
def WallKept (p q : Point K) (d e : K) : Prop := (Gap.mk (distSq p q) ((d + e) / 2)).AtLeast (1 / 4 - 1 / 1000)

instance (p q : Point K) (d e : K) : Decidable (WallKept p q d e) := inferInstanceAs (Decidable (Gap.AtLeast _ _))

/-- Two holes of the drill file that are at different places are apart. -/
def HolesApart (first second : DrillHole K) : Prop :=
  first.place ≠ second.place → WallKept first.place second.place first.diameter second.diameter

instance (first second : DrillHole K) : Decidable (HolesApart first second) :=
  inferInstanceAs (Decidable (_ → _))

variable (fmt : Format K) (profile : Dfm.FabProfile K)

/-- The rules see every via of the routing and every hole of the drill file, and no via twice. -/
structure HolesCovered (design : Design K) : Prop where
  /-- `DRC-006` counts every via of a net. -/
  counted : ∀ routing ∈ design.routing, ∀ net_id,
    ((viaCount routing).get? net_id).getD 0 =
      (routedVias routing).countP fun via => via.net_id = some net_id
  /-- `DRC-020` reports every via with too small a ring. -/
  rings : ∀ routing ∈ design.routing, (checkMinAnnularRing fmt design).length =
    (routedVias routing).countP fun via =>
      annularRing via.diameter via.hole < minAnnularRing design - 1 / 1000
  /-- And so does the check of the fab profile. -/
  dfm_rings : ∀ routing ∈ design.routing, (Dfm.checkAnnularRing fmt profile design).length =
    (routedVias routing).countP fun via => annularRing via.diameter via.hole < profile.min_annular_ring_mm
  /-- When `DRC-013` is silent, the holes of the drill file are apart. -/
  walls : checkHoleToHoleClearance fmt design = [] → (collectDrillHoles design).Pairwise HolesApart
  /-- A via is not too close to itself. -/
  single : ∀ routing ∈ design.routing, ∀ via ∈ routing.vias, ∀ segment ∈ flaggedTraces routing,
    SameVia via segment → holeClearanceViolation fmt (viaHole via) (traceHole segment) = none

/-- What is asked of a board for that: the vias that are a record only have no net, and large rings; either
two vias are too close anyway, or pads and mounting holes are apart from each other and from vias; and no via
with a hole is recorded twice. -/
structure HolesPlain (design : Design K) : Prop where
  counted : ∀ routing ∈ design.routing, ∀ via ∈ unmarkedVias routing, via.net_id = none
  rings : ∀ routing ∈ design.routing, ∀ via ∈ unmarkedVias routing,
    minAnnularRing design - 1 / 1000 ≤ annularRing via.diameter via.hole
  dfm_rings : ∀ routing ∈ design.routing, ∀ via ∈ unmarkedVias routing,
    profile.min_annular_ring_mm ≤ annularRing via.diameter via.hole
  walls : (∃ routing ∈ design.routing, ¬ (routingDrilledHoles routing).Pairwise fun first second =>
      WallKept first.place second.place first.diameter second.diameter) ∨
    (componentDrillHoles design ++ mountingDrillHoles design).Pairwise HolesApart ∧
      ∀ first ∈ componentDrillHoles design ++ mountingDrillHoles design,
        ∀ second ∈ routingDrillHoles design, HolesApart first second
  single : ∀ routing ∈ design.routing, ∀ via ∈ routing.vias, Marked routing via → via.hole ≤ -(249 / 1000)

variable [IsStrictOrderedRing K]

/-! ## Counts -/

theorem countP_flaggedTraces_eq_iff (routing : RouteResult K) (p : Via K → Prop) [DecidablePred p] :
    ((flaggedTraces routing).countP fun segment => p (traceVia segment)) =
        (routedVias routing).countP (fun via => p via) ↔
      ∀ via ∈ unmarkedVias routing, ¬ p via := by
  have hmarked : ((flaggedTraces routing).map traceVia).countP (fun via => p via) =
      (flaggedTraces routing).countP fun segment => p (traceVia segment) := countP_map
  rw [routedVias, countP_append, hmarked, left_eq_add, countP_eq_zero]
  simp only [decide_eq_true_eq]

/-- **DRC-006** counts every via of a net exactly when only marked vias are on nets. -/
theorem counted_iff (routing : RouteResult K) :
    (∀ net_id, ((viaCount routing).get? net_id).getD 0 =
        (routedVias routing).countP fun via => via.net_id = some net_id) ↔
      ∀ via ∈ unmarkedVias routing, via.net_id = none := by
  have hcount : ∀ net_id, ((viaCount routing).get? net_id).getD 0 =
      (flaggedTraces routing).countP fun segment => (traceVia segment).net_id = some net_id := by
    intro net_id
    rw [viaCount, Dict.getD_get?_countBy]
    simp only [traceVia, Option.some.injEq]
  constructor
  · intro hcounted via hvia
    rw [Option.eq_none_iff_forall_ne_some]
    intro net_id
    exact (countP_flaggedTraces_eq_iff routing fun via => via.net_id = some net_id).mp
      (hcount net_id ▸ hcounted net_id) via hvia
  · intro hnone net_id
    rw [hcount]
    refine (countP_flaggedTraces_eq_iff routing fun via => via.net_id = some net_id).mpr ?_
    intro via hvia
    rw [hnone via hvia]
    exact (Option.some_ne_none net_id).symm

theorem length_filterMap_annularRingViolation (m : K) (traces : List (TraceSegment K)) :
    (traces.filterMap (annularRingViolation fmt m)).length = traces.countP fun segment =>
      annularRing (traceVia segment).diameter (traceVia segment).hole < m - 1 / 1000 := by
  rw [length_filterMap_eq_countP]
  refine countP_congr fun segment _ => ?_
  simp only [annularRingViolation, traceVia]
  split <;> simp_all

theorem length_checkAnnularRing {design : Design K} {routing : RouteResult K}
    (hrouting : design.routing = some routing) :
    (Dfm.checkAnnularRing fmt profile design).length = (flaggedTraces routing).countP fun segment =>
      annularRing (traceVia segment).diameter (traceVia segment).hole < profile.min_annular_ring_mm := by
  have hfst : routing.traces = routing.traces.zipIdx.map Prod.fst := by simp
  rw [Dfm.checkAnnularRing, hrouting, flaggedTraces, countP_filter, length_filterMap_eq_countP]
  dsimp only
  conv_rhs => rw [hfst, countP_map]
  refine countP_congr fun item _ => ?_
  obtain ⟨segment, i⟩ := item
  by_cases hvia : segment.via <;>
    by_cases hring : (segment.via_diameter - segment.via_hole) / 2 < profile.min_annular_ring_mm <;>
    simp [Dfm.annularRingViolation, traceVia, annularRing, hvia, hring]

/-! ## Walls -/

theorem holeClearanceViolation_eq_none_iff {first second : DrilledHole K} :
    holeClearanceViolation fmt first second = none ↔
      WallKept first.place second.place first.diameter second.diameter := by
  simp only [holeClearanceViolation, ite_eq_left_iff, reduceCtorEq, imp_false, not_not]
  rfl

theorem checkHoleToHoleClearance_eq_nil_iff (design : Design K) :
    checkHoleToHoleClearance fmt design = [] ↔
      ∀ routing ∈ design.routing, (routingDrilledHoles routing).Pairwise fun first second =>
        WallKept first.place second.place first.diameter second.diameter := by
  unfold checkHoleToHoleClearance
  cases design.routing with
  | none => simp
  | some routing =>
    simp only [Option.mem_some_iff, forall_eq', filterMap_eq_nil_iff,
      holeClearanceViolation_eq_none_iff]
    exact forall_tracePairs_iff (R := fun first second : DrilledHole K =>
      WallKept first.place second.place first.diameter second.diameter)

theorem pairwise_routingDrillHoles {design : Design K}
    (h : ∀ routing ∈ design.routing, (routingDrilledHoles routing).Pairwise fun first second =>
      WallKept first.place second.place first.diameter second.diameter) :
    (routingDrillHoles design).Pairwise HolesApart := by
  unfold routingDrillHoles
  cases hrouting : design.routing with
  | none => exact List.Pairwise.nil
  | some routing =>
    have hvias := (pairwise_append.mp (h routing hrouting)).1
    rw [pairwise_map] at hvias ⊢
    exact hvias.imp fun {a b} (hkept : WallKept (a.x, a.y) (b.x, b.y) a.hole b.hole) _ => hkept

/-- **DRC-013** answers for the drill file exactly when it reports something, or pads and mounting holes are
apart from all holes. -/
theorem walls_iff (design : Design K) :
    (checkHoleToHoleClearance fmt design = [] → (collectDrillHoles design).Pairwise HolesApart) ↔
      (∃ routing ∈ design.routing, ¬ (routingDrilledHoles routing).Pairwise fun first second =>
          WallKept first.place second.place first.diameter second.diameter) ∨
        (componentDrillHoles design ++ mountingDrillHoles design).Pairwise HolesApart ∧
          ∀ first ∈ componentDrillHoles design ++ mountingDrillHoles design,
            ∀ second ∈ routingDrillHoles design, HolesApart first second := by
  rw [checkHoleToHoleClearance_eq_nil_iff, collectDrillHoles, pairwise_append]
  by_cases hsilent : ∀ routing ∈ design.routing, (routingDrilledHoles routing).Pairwise
      fun first second => WallKept first.place second.place first.diameter second.diameter
  · have hvias := pairwise_routingDrillHoles hsilent
    have hnone : ¬ ∃ routing ∈ design.routing, ¬ (routingDrilledHoles routing).Pairwise
        fun first second => WallKept first.place second.place first.diameter second.diameter := by
      rintro ⟨routing, hrouting, hnot⟩
      exact hnot (hsilent routing hrouting)
    rw [or_iff_right hnone]
    exact ⟨fun h => ⟨(h hsilent).1, (h hsilent).2.2⟩, fun h _ => ⟨h.1, hvias, h.2⟩⟩
  · refine iff_of_true (fun h => absurd h hsilent) (.inl ?_)
    simpa only [not_forall, exists_prop] using hsilent

/-! ## One via -/

theorem holeClearanceViolation_self_iff {via : Via K} {segment : TraceSegment K} (h : SameVia via segment) :
    holeClearanceViolation fmt (viaHole via) (traceHole segment) = none ↔ via.hole ≤ -(249 / 1000) := by
  obtain ⟨hplace, -, hhole, -⟩ := h
  have hzero : distSq (via.x, via.y) segment.start = 0 := by simp [hplace, distSq]
  rw [holeClearanceViolation_eq_none_iff]
  simp only [WallKept, viaHole, traceHole, Gap.AtLeast, AtLeast, hzero, hhole, sq_nonpos_iff]
  constructor
  · rintro (hle | heq) <;> linarith
  · intro hle
    exact .inl (by linarith)

/-- **The rules are complete** on these boards, and on no others. -/
theorem holesCovered_iff (design : Design K) :
    HolesCovered fmt profile design ↔ HolesPlain profile design := by
  have hrings : ∀ routing ∈ design.routing, ((checkMinAnnularRing fmt design).length =
      (routedVias routing).countP (fun via =>
        annularRing via.diameter via.hole < minAnnularRing design - 1 / 1000) ↔
      ∀ via ∈ unmarkedVias routing, minAnnularRing design - 1 / 1000 ≤ annularRing via.diameter via.hole) := by
    intro routing hrouting
    rw [checkMinAnnularRing, hrouting]
    dsimp only
    rw [length_filterMap_annularRingViolation, countP_flaggedTraces_eq_iff routing fun via =>
      annularRing via.diameter via.hole < minAnnularRing design - 1 / 1000]
    simp only [not_lt]
  have hdfm : ∀ routing ∈ design.routing, ((Dfm.checkAnnularRing fmt profile design).length =
      (routedVias routing).countP (fun via =>
        annularRing via.diameter via.hole < profile.min_annular_ring_mm) ↔
      ∀ via ∈ unmarkedVias routing, profile.min_annular_ring_mm ≤ annularRing via.diameter via.hole) := by
    intro routing hrouting
    rw [length_checkAnnularRing fmt profile hrouting, countP_flaggedTraces_eq_iff routing fun via =>
      annularRing via.diameter via.hole < profile.min_annular_ring_mm]
    simp only [not_lt]
  constructor
  · rintro ⟨hcounted, hring, hring', hwalls, hsingle⟩
    refine ⟨fun routing hrouting => (counted_iff routing).mp (hcounted routing hrouting),
      fun routing hrouting => (hrings routing hrouting).mp (hring routing hrouting),
      fun routing hrouting => (hdfm routing hrouting).mp (hring' routing hrouting),
      (walls_iff fmt design).mp hwalls, ?_⟩
    rintro routing hrouting via hvia ⟨segment, hsegment, hsame⟩
    exact (holeClearanceViolation_self_iff fmt hsame).mp
      (hsingle routing hrouting via hvia segment hsegment hsame)
  · rintro ⟨hcounted, hring, hring', hwalls, hsingle⟩
    refine ⟨fun routing hrouting => (counted_iff routing).mpr (hcounted routing hrouting),
      fun routing hrouting => (hrings routing hrouting).mpr (hring routing hrouting),
      fun routing hrouting => (hdfm routing hrouting).mpr (hring' routing hrouting),
      (walls_iff fmt design).mpr hwalls, ?_⟩
    intro routing hrouting via hvia segment hsegment hsame
    exact (holeClearanceViolation_self_iff fmt hsame).mpr
      (hsingle routing hrouting via hvia ⟨segment, hsegment, hsame⟩)

/-- A trace without length that marks a via, as the importer of routed sessions writes it. -/
def viaTrace (net_id : String) (place : Point ℚ) : TraceSegment ℚ :=
  { traceOf "" net_id (9 / 20) place place with via := true }

/-- A via of an imported session: the record has no net, and a trace marks it. -/
def sessionBoard : Design ℚ where
  __ := boardOf []
  routing := some { traces := [viaTrace "A" (10, 10)], vias := [⟨10, 10, 9 / 20, 1 / 5, none⟩] }

/-- A via that a trace marks, a record of another via without a net, and a mounting hole. -/
def markedBoard : Design ℚ where
  __ := boardOf []
  routing := some
    { traces := [{ viaTrace "A" (10, 10) with via_diameter := 3 / 5 }]
      vias := [⟨20, 20, 3 / 5, 1 / 5, none⟩] }
  board_def := some
    { mounting_holes := [⟨(3, 3), 3, false⟩]
      constraints :=
        { min_clearance_high_voltage := 3 / 10, min_annular_ring := 13 / 100, min_solder_mask_sliver := 1 / 10 } }

-- for `decide` below
attribute [local semireducible] Rat.add Rat.sub Rat.mul Rat.inv

/-- The via of an imported session is too close to itself. -/
theorem not_holesCovered_sessionBoard :
    ¬ HolesCovered plainFormat Dfm.twoLayerProfile sessionBoard := by
  intro hcovered
  have hsingle := hcovered.single _ rfl _ mem_cons_self (viaTrace "A" (10, 10))
    (by decide) (by decide)
  revert hsingle
  decide

theorem holesCovered_markedBoard : HolesCovered plainFormat Dfm.twoLayerProfile markedBoard := by
  refine (holesCovered_iff plainFormat Dfm.twoLayerProfile markedBoard).mpr ?_
  constructor
  · decide
  · decide
  · decide
  · refine .inr ⟨?_, ?_⟩ <;> decide
  · decide

end ZapTrace.Routing.Drc
