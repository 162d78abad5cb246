import Mathlib.Data.Rat.Sqrt
import ZapTrace.Algo.ShoveClearance

/-!
# Spring-back

After a connection is shoved, each segment of its path is moved half way to the rubber band: its start
towards the start of the connection, its end towards the end of the connection. The moved segment replaces
the old one when a check of the moved segment alone passes. The two segments at a corner move the corner to
different places, so a path with a corner comes apart when one of them is replaced.

## Main results

* `segments_springback`: each final segment comes from one segment of the path
* `x1_ne_x2_of_detour`, `y1_ne_of_detour`: a detour has two corners
* `intact_iff_cornersKept`: the path stays intact exactly when no segment leaves a corner
-/

set_option linter.unusedSectionVars false

namespace ZapTrace.Shove

open List hiding getElem?_eq_some_iff
open Plane Segment Connection

structure SpringbackSegment (K : Type) where
  coords : Segment K
  retracted : Bool
  drc_clean : Bool

/-- A result with the moves, less the time that it took. -/
structure ShoveSpringbackResult (K : Type) where
  net_id : String
  provenance : String
  resolved : Bool
  segments : List (Segment K)
  springback_segments : List (SpringbackSegment K)
  retracted_count : ℕ
  drc_clean : Bool

variable {K : Type} [Field K] [LinearOrder K]

/-- A segment is clear of all obstacles. The margin moves the first point down and the second one up,
whichever of the two is lower. -/
def stubDrcSegment (s : Segment K) (obstacles : List (Segment K)) (clearance : K) : Bool :=
  let margin := clearance * (1 / 2)
  obstacles.all fun o => !decide
    (min (s.x1 - margin) (s.x2 + margin) < max o.x1 o.x2 ∧
      max (s.x1 - margin) (s.x2 + margin) > min o.x1 o.x2 ∧
      min (s.y1 - margin) (s.y2 + margin) < max o.y1 o.y2 ∧
      max (s.y1 - margin) (s.y2 + margin) > min o.y1 o.y2)

/-- A segment half way to the rubber band. -/
def halfway (s : Segment K) (conn : Connection K) : Segment K where
  x1 := (s.x1 + conn.x1) * (1 / 2)
  y1 := (s.y1 + conn.y1) * (1 / 2)
  x2 := (s.x2 + conn.x2) * (1 / 2)
  y2 := (s.y2 + conn.y2) * (1 / 2)

def tryRetractSegment (s : Segment K) (conn : Connection K) (obstacles : List (Segment K))
    (clearance : K) : Option (Segment K) :=
  if stubDrcSegment (halfway s conn) obstacles clearance then some (halfway s conn) else none

/-- The body of the loop over the segments of a path. -/
def springbackStep (conn : Connection K) (obstacles : List (Segment K)) (clearance : K)
    (r : ShoveSpringbackResult K) (s : Segment K) : ShoveSpringbackResult K :=
  match tryRetractSegment s conn obstacles clearance with
  | some retracted =>
    let seg_drc := stubDrcSegment retracted obstacles clearance
    { r with
      segments := r.segments ++ [retracted]
      springback_segments := r.springback_segments ++ [⟨retracted, true, seg_drc⟩]
      retracted_count := r.retracted_count + 1
      drc_clean := r.drc_clean && seg_drc }
  | none =>
    let seg_drc := stubDrcSegment s obstacles clearance
    { r with
      segments := r.segments ++ [s]
      springback_segments := r.springback_segments ++ [⟨s, false, seg_drc⟩]
      drc_clean := r.drc_clean && seg_drc }

def springback (obstacles : List (Segment K)) (clearance : K) (conn : Connection K) (sr : ShoveResult K) :
    ShoveSpringbackResult K :=
  sr.segments.foldl (springbackStep conn obstacles clearance)
    { net_id := conn.net_id, provenance := sr.provenance, resolved := sr.resolved, segments := [],
      springback_segments := [], retracted_count := 0, drc_clean := true }

/-- The router with the moves after it. There is one result for each connection. -/
def routeShoveSpringback (fmt : Routing.Format K) (core_available : Bool)
    (connections : List (Connection K)) (obstacles : List (Segment K)) (clearance : K)
    (force_python : Bool) : Except String (List (ShoveSpringbackResult K)) :=
  if clearance < 0 then
    .error s!"clearance must be non-negative, got {fmt.shown clearance}"
  else do
    let shove_results ← routeShove fmt core_available connections obstacles clearance force_python
    pure (zipWith (springback obstacles clearance) connections shove_results)

/-! ## Single moves -/

def sprung (obstacles : List (Segment K)) (clearance : K) (conn : Connection K) (s : Segment K) :
    Segment K :=
  if stubDrcSegment (halfway s conn) obstacles clearance then halfway s conn else s

theorem springbackStep_segments (conn : Connection K) (obstacles : List (Segment K)) (clearance : K)
    (r : ShoveSpringbackResult K) (s : Segment K) :
    (springbackStep conn obstacles clearance r s).segments =
      r.segments ++ [sprung obstacles clearance conn s] := by
  unfold springbackStep tryRetractSegment sprung
  split_ifs <;> rfl

theorem springbackStep_resolved (conn : Connection K) (obstacles : List (Segment K)) (clearance : K)
    (r : ShoveSpringbackResult K) (s : Segment K) :
    (springbackStep conn obstacles clearance r s).resolved = r.resolved := by
  unfold springbackStep tryRetractSegment
  split_ifs <;> rfl

theorem foldl_springbackStep (conn : Connection K) (obstacles : List (Segment K)) (clearance : K)
    (path : List (Segment K)) (r : ShoveSpringbackResult K) :
    (path.foldl (springbackStep conn obstacles clearance) r).segments =
        r.segments ++ path.map (sprung obstacles clearance conn) ∧
      (path.foldl (springbackStep conn obstacles clearance) r).resolved = r.resolved := by
  induction path generalizing r with
  | nil => simp
  | cons s path ih =>
    rw [foldl_cons, (ih _).1, (ih _).2, springbackStep_segments, springbackStep_resolved]
    simp

theorem segments_springback (obstacles : List (Segment K)) (clearance : K) (conn : Connection K)
    (sr : ShoveResult K) :
    (springback obstacles clearance conn sr).segments =
      sr.segments.map (sprung obstacles clearance conn) :=
  (foldl_springbackStep conn obstacles clearance sr.segments _).1.trans (nil_append _)

theorem resolved_springback (obstacles : List (Segment K)) (clearance : K) (conn : Connection K)
    (sr : ShoveResult K) : (springback obstacles clearance conn sr).resolved = sr.resolved :=
  (foldl_springbackStep conn obstacles clearance sr.segments _).2

variable [IsStrictOrderedRing K]

theorem add_half_self (a : K) : (a + a) * (1 / 2) = a := by ring

/-! ## Detours -/

theorem anyOverlap_eq_true_iff {path obstacles : List (Segment K)} :
    anyOverlap path obstacles = true ↔ ∃ o ∈ obstacles, ∃ s ∈ path, aabbOverlap s o := by
  simp [anyOverlap]

variable {obstacles : List (Segment K)} {conn : Connection K}

theorem y1_ne_of_detour {detour_y : K} (hnaive : anyOverlap conn.naive obstacles = true)
    (haround : anyOverlap (conn.around detour_y) obstacles = false) : detour_y ≠ conn.y1 := by
  rintro rfl
  obtain ⟨o, ho, s, hs, hoverlap⟩ := anyOverlap_eq_true_iff.mp hnaive
  -- the L is the rest of such a detour
  have hmem : s ∈ conn.around conn.y1 := mem_cons_of_mem _ hs
  have hblocked := anyOverlap_eq_true_iff.mpr ⟨o, ho, s, hmem, hoverlap⟩
  rw [haround] at hblocked
  cases hblocked

theorem x1_ne_x2_of_detour {detour_y : K} (hy1 : conn.y1 ≤ detour_y) (hy2 : conn.y2 ≤ detour_y)
    (hnaive : anyOverlap conn.naive obstacles = true) (haround : anyOverlap (conn.around detour_y) obstacles = false) :
    conn.x1 ≠ conn.x2 := by
  intro hx
  obtain ⟨o, ho, s, hs, hxlow, hxup, hylow, hyup⟩ := anyOverlap_eq_true_iff.mp hnaive
  suffices hriser : ∃ riser ∈ conn.around detour_y, aabbOverlap riser o by
    obtain ⟨riser, hmem, hoverlap⟩ := hriser
    have hblocked := anyOverlap_eq_true_iff.mpr ⟨o, ho, riser, hmem, hoverlap⟩
    rw [haround] at hblocked
    cases hblocked
  -- the riser from the lower end passes all that is in the way of the L
  rcases mem_cons.mp hs with rfl | hs
  · refine ⟨⟨conn.x1, conn.y1, conn.x1, detour_y⟩, by simp [around], ?_⟩
    simp only [← hx] at hxlow hxup
    rw [min_self] at hylow
    rw [max_self] at hyup
    exact ⟨hxlow, hxup, (min_le_left _ _).trans_lt hylow, hyup.trans_le (le_max_left _ _)⟩
  · obtain rfl := mem_singleton.mp hs
    rcases le_total conn.y1 conn.y2 with hle | hle
    · refine ⟨⟨conn.x1, conn.y1, conn.x1, detour_y⟩, by simp [around], ?_⟩
      simp only [min_eq_left hle] at hylow
      simp only [max_eq_right hle] at hyup
      simp only [← hx] at hxlow hxup
      exact ⟨hxlow, hxup, (min_le_left _ _).trans_lt hylow,
        hyup.trans_le (hy2.trans (le_max_right _ _))⟩
    · refine ⟨⟨conn.x2, detour_y, conn.x2, conn.y2⟩, by simp [around], ?_⟩
      simp only [min_eq_right hle] at hylow
      simp only [max_eq_left hle] at hyup
      exact ⟨hxlow, hxup, (min_le_right _ _).trans_lt hylow, hyup.trans_le (hy1.trans (le_max_left _ _))⟩

/-! ## Corners -/

/-- The check of a moved segment passes, so that it replaces the segment. -/
def Moves (obstacles : List (Segment K)) (clearance : K) (conn : Connection K) (s : Segment K) : Prop :=
  stubDrcSegment (halfway s conn) obstacles clearance = true

/-- No segment leaves a corner. On an L that is bent, a leg that moves does; on a detour that is taken,
each segment that moves does. -/
def CornersKept (detour_y : K) (obstacles : List (Segment K)) (clearance : K) (conn : Connection K) : Prop :=
  (anyOverlap conn.naive obstacles = false →
    (Moves obstacles clearance conn ⟨conn.x1, conn.y1, conn.x2, conn.y1⟩ → conn.y1 = conn.y2) ∧
      (Moves obstacles clearance conn ⟨conn.x2, conn.y1, conn.x2, conn.y2⟩ → conn.x1 = conn.x2)) ∧
  (anyOverlap conn.naive obstacles = true → anyOverlap (conn.around detour_y) obstacles = false →
    ∀ s ∈ conn.around detour_y, ¬ Moves obstacles clearance conn s)
variable {clearance : K}

theorem sprung_of_moves {s : Segment K} (h : Moves obstacles clearance conn s) :
    sprung obstacles clearance conn s = halfway s conn :=
  if_pos h

theorem sprung_of_not_moves {s : Segment K} (h : ¬ Moves obstacles clearance conn s) :
    sprung obstacles clearance conn s = s :=
  if_neg h

theorem joins_pair {p q : Point K} {a b : Segment K} :
    Joins p [a, b] q ↔ a.start = p ∧ b.start = a.stop ∧ b.stop = q := Iff.rfl

theorem joins_triple {p q : Point K} {a b c : Segment K} :
    Joins p [a, b, c] q ↔ a.start = p ∧ b.start = a.stop ∧ c.start = b.stop ∧ c.stop = q := Iff.rfl

theorem joins_naive_iff :
    Joins (conn.x1, conn.y1) (conn.naive.map (sprung obstacles clearance conn)) (conn.x2, conn.y2) ↔
      (Moves obstacles clearance conn ⟨conn.x1, conn.y1, conn.x2, conn.y1⟩ → conn.y1 = conn.y2) ∧
        (Moves obstacles clearance conn ⟨conn.x2, conn.y1, conn.x2, conn.y2⟩ → conn.x1 = conn.x2) := by
  by_cases hfirst : Moves obstacles clearance conn ⟨conn.x1, conn.y1, conn.x2, conn.y1⟩ <;>
  by_cases hsecond : Moves obstacles clearance conn ⟨conn.x2, conn.y1, conn.x2, conn.y2⟩ <;>
  simp only [naive, map_cons, map_nil, joins_pair]
  · -- both legs move: the first one ends on the second side, the second one starts on the first side
    rw [sprung_of_moves hfirst, sprung_of_moves hsecond]
    simp only [halfway, start, stop, Prod.mk.injEq, add_half_self, hfirst, hsecond,
      true_implies, true_and, and_true]
    constructor
    · rintro ⟨hx, hy⟩
      exact ⟨by linarith, by linarith⟩
    · rintro ⟨hy, hx⟩
      exact ⟨by linarith, by linarith⟩
  · rw [sprung_of_moves hfirst, sprung_of_not_moves hsecond]
    simp only [halfway, start, stop, Prod.mk.injEq, add_half_self, hfirst, hsecond,
      true_implies, false_implies, true_and, and_true]
    constructor <;> intro h <;> linarith
  · rw [sprung_of_not_moves hfirst, sprung_of_moves hsecond]
    simp only [halfway, start, stop, Prod.mk.injEq, add_half_self, hfirst, hsecond,
      true_implies, false_implies, true_and, and_true]
    constructor <;> intro h <;> linarith
  · rw [sprung_of_not_moves hfirst, sprung_of_not_moves hsecond]
    simp [start, stop, hfirst, hsecond]

theorem joins_around_iff {clearance detour_y : K} (hx : conn.x1 ≠ conn.x2) (hy : detour_y ≠ conn.y1) :
    Joins (conn.x1, conn.y1) ((conn.around detour_y).map (sprung obstacles clearance conn))
        (conn.x2, conn.y2) ↔
      ∀ s ∈ conn.around detour_y, ¬ Moves obstacles clearance conn s := by
  simp only [around, map_cons, map_nil, joins_triple, forall_mem_cons,
    not_mem_nil, IsEmpty.forall_iff, implies_true, and_true]
  constructor
  · rintro ⟨-, hfirst, hsecond, -⟩
    simp only [start, stop, Prod.mk.injEq] at hfirst hsecond
    by_cases hriser : Moves obstacles clearance conn ⟨conn.x1, conn.y1, conn.x1, detour_y⟩ <;>
    by_cases htop : Moves obstacles clearance conn ⟨conn.x1, detour_y, conn.x2, detour_y⟩
    · -- the end of the riser moves to the other end of the connection, the start of the top does not
      rw [sprung_of_moves hriser, sprung_of_moves htop] at hfirst
      simp only [halfway, add_half_self] at hfirst
      exact absurd (by linarith [hfirst.1]) hx
    · rw [sprung_of_moves hriser, sprung_of_not_moves htop] at hfirst
      simp only [halfway] at hfirst
      exact absurd (by linarith [hfirst.1]) hx
    · rw [sprung_of_not_moves hriser, sprung_of_moves htop] at hfirst
      simp only [halfway] at hfirst
      exact absurd (by linarith [hfirst.2]) hy
    · refine ⟨hriser, htop, fun hlast => hx ?_⟩
      rw [sprung_of_not_moves htop, sprung_of_moves hlast] at hsecond
      simp only [halfway] at hsecond
      linarith [hsecond.1]
  · rintro ⟨hriser, htop, hlast⟩
    rw [sprung_of_not_moves hriser, sprung_of_not_moves htop, sprung_of_not_moves hlast]
    exact ⟨rfl, rfl, rfl, rfl⟩

/-! ## Lengths -/

def segmentLength (sqrt : K → K) (s : Segment K) : K := sqrt ((s.x2 - s.x1) ^ 2 + (s.y2 - s.y1) ^ 2)

def totalLength (sqrt : K → K) (path : List (Segment K)) : K := (path.map (segmentLength sqrt)).sum

/-- What a result says about the path when it is resolved: it still joins the ends, and is not longer. -/
def Intact (sqrt : K → K) (conn : Connection K) (sr : ShoveResult K) (r : ShoveSpringbackResult K) : Prop :=
  r.resolved = true → Joins (conn.x1, conn.y1) r.segments (conn.x2, conn.y2) ∧
    totalLength sqrt r.segments ≤ totalLength sqrt sr.segments

theorem map_sprung_naive
    (h : (Moves obstacles clearance conn ⟨conn.x1, conn.y1, conn.x2, conn.y1⟩ → conn.y1 = conn.y2) ∧ (Moves obstacles clearance conn ⟨conn.x2, conn.y1, conn.x2, conn.y2⟩ → conn.x1 = conn.x2)) :
    conn.naive.map (sprung obstacles clearance conn) = conn.naive := by
  have hfirst : sprung obstacles clearance conn ⟨conn.x1, conn.y1, conn.x2, conn.y1⟩ =
      ⟨conn.x1, conn.y1, conn.x2, conn.y1⟩ := by
    by_cases hmoves : Moves obstacles clearance conn ⟨conn.x1, conn.y1, conn.x2, conn.y1⟩
    · rw [sprung_of_moves hmoves]
      simp only [halfway, ← h.1 hmoves, add_half_self]
    · exact sprung_of_not_moves hmoves
  have hsecond : sprung obstacles clearance conn ⟨conn.x2, conn.y1, conn.x2, conn.y2⟩ =
      ⟨conn.x2, conn.y1, conn.x2, conn.y2⟩ := by
    by_cases hmoves : Moves obstacles clearance conn ⟨conn.x2, conn.y1, conn.x2, conn.y2⟩
    · rw [sprung_of_moves hmoves]
      simp only [halfway, h.2 hmoves, add_half_self]
    · exact sprung_of_not_moves hmoves
  rw [naive, map_cons, map_cons, map_nil, hfirst, hsecond]

theorem map_sprung_of_forall {path : List (Segment K)} (h : ∀ s ∈ path, ¬ Moves obstacles clearance conn s) :
    path.map (sprung obstacles clearance conn) = path :=
  (map_congr_left fun s hs => sprung_of_not_moves (h s hs)).trans (map_id _)

theorem intact_iff_of_pathOf {sqrt : K → K} {clearance detour_y : K} {sr : ShoveResult K} (hy1 : conn.y1 ≤ detour_y)
    (hy2 : conn.y2 ≤ detour_y) (h : (sr.resolved, sr.segments) = pathOf detour_y conn obstacles) :
    Intact sqrt conn sr (springback obstacles clearance conn sr) ↔
      CornersKept detour_y obstacles clearance conn := by
  unfold Intact CornersKept
  rw [resolved_springback, segments_springback]
  cases hnaive : anyOverlap conn.naive obstacles with
  | false =>
    rw [pathOf_of_free hnaive, Prod.mk.injEq] at h
    simp only [h.1, h.2, true_implies, Bool.false_eq_true, false_implies, and_true]
    refine ⟨fun hintact => joins_naive_iff.mp hintact.1, fun hkept => ⟨joins_naive_iff.mpr hkept, ?_⟩⟩
    rw [map_sprung_naive hkept]
  | true =>
    rw [pathOf_of_blocked hnaive] at h
    cases haround : anyOverlap (conn.around detour_y) obstacles with
    | false =>
      rw [if_pos haround, Prod.mk.injEq] at h
      have hx := x1_ne_x2_of_detour hy1 hy2 hnaive haround
      have hy := y1_ne_of_detour hnaive haround
      simp only [h.1, h.2, true_implies, Bool.true_eq_false, false_implies, true_and]
      refine ⟨fun hintact => (joins_around_iff hx hy).mp hintact.1,
        fun hkept => ⟨(joins_around_iff hx hy).mpr hkept, ?_⟩⟩
      rw [map_sprung_of_forall hkept]
    | true =>
      rw [if_neg (by simp [haround]), Prod.mk.injEq] at h
      simp [h.1]

/-- **The paths stay intact** exactly when no segment leaves a corner. -/
theorem intact_iff_cornersKept {fmt : Routing.Format K} {core_available force_python : Bool}
    {connections : List (Connection K)} {obstacles : List (Segment K)} {clearance : K}
    {results : List (ShoveSpringbackResult K)} (sqrt : K → K)
    (h : routeShoveSpringback fmt core_available connections obstacles clearance force_python =
      .ok results) :
    ∃ shove_results,
      routeShove fmt core_available connections obstacles clearance force_python = .ok shove_results ∧
      shove_results.length = connections.length ∧ results.length = connections.length ∧
      ∀ (i : ℕ) (conn : Connection K) (sr : ShoveResult K) (r : ShoveSpringbackResult K),
        connections[i]? = some conn → shove_results[i]? = some sr → results[i]? = some r →
        (Intact sqrt conn sr r ↔
          CornersKept (heightOf core_available force_python obstacles clearance conn) obstacles clearance
            conn) := by
  unfold routeShoveSpringback at h
  split_ifs at h with hclearance
  cases hshove : routeShove fmt core_available connections obstacles clearance force_python with
  | error e =>
    rw [hshove] at h
    cases h
  | ok shove_results =>
    rw [hshove] at h
    obtain rfl := Except.ok.inj h
    have hpaths := (forall₂_pathOf hshove).2
    refine ⟨shove_results, rfl, hpaths.length_eq.symm, ?_, ?_⟩
    · rw [length_zipWith, hpaths.length_eq, min_self]
    · intro i conn sr r hconn hsr hr
      rw [getElem?_zipWith, hconn, hsr] at hr
      obtain rfl := Option.some.inj hr
      have hends : max conn.y1 conn.y2 ≤
          heightOf core_available force_python obstacles clearance conn :=
        (crest_le_iff.mp le_rfl).1.trans (le_add_of_nonneg_right (not_lt.mp hclearance))
      refine intact_iff_of_pathOf ((le_max_left _ _).trans hends) ((le_max_right _ _).trans hends) ?_
      obtain ⟨hi, rfl⟩ := List.getElem?_eq_some_iff.mp hconn
      obtain ⟨hi', rfl⟩ := List.getElem?_eq_some_iff.mp hsr
      exact List.Forall₂.get hpaths hi hi'

/-- A connection with nothing in its way. -/
def openRoad : Connection ℚ := ⟨0, 0, 10, 0, "NET1"⟩

theorem routeShoveSpringback_openRoad :
    routeShoveSpringback Routing.plainFormat false [openRoad] [] (1 / 5) true =
      .ok [springback [] (1 / 5) openRoad
        { walkaround Routing.plainFormat openRoad [] (1 / 5) with net_id := "NET1" }] := by
  have hclearance : (0 : ℚ) ≤ 1 / 5 := by norm_num
  rw [routeShoveSpringback, if_neg (not_lt.mpr hclearance), routeShove_fallback _ _ _ _ hclearance]
  rfl

theorem intact_iff_cornersKept_openRoad :
    ∃ results, routeShoveSpringback Routing.plainFormat false [openRoad] [] (1 / 5) true = .ok results ∧
      ∃ shove_results,
        routeShove Routing.plainFormat false [openRoad] [] (1 / 5) true = .ok shove_results ∧
        shove_results.length = [openRoad].length ∧ results.length = [openRoad].length ∧
        ∀ (i : ℕ) (conn : Connection ℚ) (sr : ShoveResult ℚ) (r : ShoveSpringbackResult ℚ),
          [openRoad][i]? = some conn → shove_results[i]? = some sr → results[i]? = some r →
          (Intact Rat.sqrt conn sr r ↔ CornersKept (heightOf false true [] (1 / 5) conn) [] (1 / 5) conn) :=
  ⟨_, routeShoveSpringback_openRoad, intact_iff_cornersKept Rat.sqrt routeShoveSpringback_openRoad⟩

/-- The second leg, which is a point, moves half way along the first one, and the path comes apart. -/
theorem not_intact_openRoad :
    ∃ sr r, routeShove Routing.plainFormat false [openRoad] [] (1 / 5) true = .ok [sr] ∧
      routeShoveSpringback Routing.plainFormat false [openRoad] [] (1 / 5) true = .ok [r] ∧
      ¬ Intact Rat.sqrt openRoad sr r := by
  refine ⟨_, _, routeShove_fallback _ _ _ _ (by norm_num), routeShoveSpringback_openRoad, fun hintact => ?_⟩
  have hjoins := (hintact rfl).1
  revert hjoins
  with_unfolding_all decide

end ZapTrace.Shove
