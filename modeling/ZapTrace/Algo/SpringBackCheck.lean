import ZapTrace.Algo.SpringBack

/-!
# The check of a sprung segment

The check moves the first end of a segment down by half the clearance and the second end up, along each axis. On a
segment that runs upwards along the axis this makes its extent longer at both ends, on one that runs downwards shorter.
In both cases an obstacle counts when it is nearer than a margin that depends on the extent and its direction, the
leeway, and this is never more than half the clearance.

So the check turns no segment away that keeps the clearance, but lets segments pass that do not, and a segment and its
reverse can have different verdicts.

## Main results

* `stubDrcSegment_iff_near`: the check in terms of distances
* `vouched_iff_trusty`: a result keeps its word exactly when the check does
-/

set_option linter.unusedSectionVars false

namespace ZapTrace.Shove

open Plane List

variable {K : Type} [Field K] [LinearOrder K] [IsStrictOrderedRing K]

/-! ## Margins -/

/-- How far the interval of `a` and `b` is from the interval of `c` and `d`; negative when they overlap. -/
def signedGap (a b c d : K) : K := max (min a b - max c d) (min c d - max a b)

/-- The margin that the check leaves along an axis, when the segment has the extent `d`. -/
def leeway (clearance d : K) : K := (|d + clearance| - |d|) * (1 / 2)

variable {clearance : K}

theorem min_margin (a b clearance : K) :
    min (a - clearance * (1 / 2)) (b + clearance * (1 / 2)) = min a b - leeway clearance (b - a) := by
  unfold leeway
  rcases le_total a b with hab | hab <;>
  rcases le_total (a - clearance * (1 / 2)) (b + clearance * (1 / 2)) with hlow | hlow <;>
  rcases abs_cases (b - a) with ⟨hd, _⟩ | ⟨hd, _⟩ <;>
  rcases abs_cases (b - a + clearance) with ⟨he, _⟩ | ⟨he, _⟩ <;>
  simp only [min_eq_left, min_eq_right, hab, hlow, hd, he] <;> linarith

theorem max_margin (a b clearance : K) :
    max (a - clearance * (1 / 2)) (b + clearance * (1 / 2)) = max a b + leeway clearance (b - a) := by
  have hsum := min_add_max (a - clearance * (1 / 2)) (b + clearance * (1 / 2))
  have hsum' := min_add_max a b
  rw [min_margin] at hsum
  linarith

/-- An obstacle counts when along both axes it is nearer than the leeway. -/
def Near (clearance : K) (s o : Segment K) : Prop :=
  signedGap s.x1 s.x2 o.x1 o.x2 < leeway clearance (s.x2 - s.x1) ∧
    signedGap s.y1 s.y2 o.y1 o.y2 < leeway clearance (s.y2 - s.y1)

def AnyNear (obstacles : List (Segment K)) (clearance : K) (s : Segment K) : Prop :=
  ∃ o ∈ obstacles, Near clearance s o

instance (clearance : K) (s o : Segment K) : Decidable (Near clearance s o) := inferInstanceAs (Decidable (_ ∧ _))

instance (obstacles : List (Segment K)) (clearance : K) (s : Segment K) :
    Decidable (AnyNear obstacles clearance s) :=
  inferInstanceAs (Decidable (∃ o ∈ obstacles, _))

theorem overlaps_iff_signedGap (a b c d clearance : K) :
    (min (a - clearance * (1 / 2)) (b + clearance * (1 / 2)) < max c d ∧
        max (a - clearance * (1 / 2)) (b + clearance * (1 / 2)) > min c d) ↔
      signedGap a b c d < leeway clearance (b - a) := by
  rw [min_margin, max_margin, signedGap, max_lt_iff]
  constructor
  · rintro ⟨hlow, hup⟩
    exact ⟨by linarith, by linarith⟩
  · rintro ⟨hlow, hup⟩
    exact ⟨by linarith, by linarith⟩

variable {obstacles : List (Segment K)} {s : Segment K}

/-- **The check in terms of distances.** -/
theorem stubDrcSegment_iff_near : stubDrcSegment s obstacles clearance = true ↔ ¬ AnyNear obstacles clearance s := by
  unfold stubDrcSegment AnyNear
  simp only [all_eq_true, not_exists, not_and]
  refine forall₂_congr fun o _ => ?_
  rw [Bool.not_eq_true', decide_eq_false_iff_not]
  apply not_congr
  rw [Near, ← overlaps_iff_signedGap, ← overlaps_iff_signedGap, and_assoc]

/-! ## Results -/

/-- The segment from its end to its start. -/
def Segment.swap (s : Segment K) : Segment K := ⟨s.x2, s.y2, s.x1, s.y1⟩

/-- Every point of the box of a segment is at least the clearance away from every obstacle. -/
def BoxKeepsClear (obstacles : List (Segment K)) (clearance : K) (s : Segment K) : Prop :=
  ∀ o ∈ obstacles, ∀ p, InBox s.start p s.stop → ∀ q, InBox o.start q o.stop → AtLeast (distSq p q) clearance

theorem boxKeepsClear_iff : BoxKeepsClear obstacles clearance s ↔ RoomAround obstacles clearance s.start s.stop :=
  forall₂_congr fun _ _ => forall_atLeast_iff _ _ _ _ _

/-- What a result says about its segments. -/
structure Vouched (obstacles : List (Segment K)) (clearance : K) (r : ShoveSpringbackResult K) : Prop where
  clear : r.drc_clean = true → ∀ s ∈ r.segments, BoxKeepsClear obstacles clearance s
  reversed : ∀ b ∈ r.springback_segments, stubDrcSegment b.coords.swap obstacles clearance = b.drc_clean

/-- The check can be trusted on a path. Either an obstacle is near a segment and also near the same segment half way to
the rubber band, or all segments that are taken keep the clearance. No obstacle is near a segment that is taken but not
near its reverse, or the other way around. -/
structure Trusty (obstacles : List (Segment K)) (clearance : K) (conn : Connection K) (path : List (Segment K)) :
    Prop where
  clear : (∃ s ∈ path, AnyNear obstacles clearance (halfway s conn) ∧ AnyNear obstacles clearance s) ∨
    ∀ s ∈ path,
      (¬ AnyNear obstacles clearance (halfway s conn) →
        RoomAround obstacles clearance (halfway s conn).start (halfway s conn).stop) ∧
      (AnyNear obstacles clearance (halfway s conn) → RoomAround obstacles clearance s.start s.stop)
  reversed : ∀ s ∈ path,
    (¬ AnyNear obstacles clearance (halfway s conn) → ¬ AnyNear obstacles clearance (halfway s conn).swap) ∧
    (AnyNear obstacles clearance (halfway s conn) →
      (AnyNear obstacles clearance s.swap ↔ AnyNear obstacles clearance s))

theorem sprung_of_not_near {conn : Connection K} (h : ¬ AnyNear obstacles clearance (halfway s conn)) :
    sprung obstacles clearance conn s = halfway s conn :=
  sprung_of_moves (stubDrcSegment_iff_near.mpr h)

theorem sprung_of_near {conn : Connection K} (h : AnyNear obstacles clearance (halfway s conn)) :
    sprung obstacles clearance conn s = s :=
  sprung_of_not_moves fun hmoves => stubDrcSegment_iff_near.mp hmoves h

/-- What the loop notes about a segment. -/
def evidence (obstacles : List (Segment K)) (clearance : K) (conn : Connection K) (s : Segment K) :
    SpringbackSegment K where
  coords := sprung obstacles clearance conn s
  retracted := stubDrcSegment (halfway s conn) obstacles clearance
  drc_clean := stubDrcSegment (sprung obstacles clearance conn s) obstacles clearance

theorem springbackStep_evidence (conn : Connection K) (obstacles : List (Segment K)) (clearance : K)
    (r : ShoveSpringbackResult K) (s : Segment K) :
    (springbackStep conn obstacles clearance r s).springback_segments =
        r.springback_segments ++ [evidence obstacles clearance conn s] ∧
      (springbackStep conn obstacles clearance r s).drc_clean =
        (r.drc_clean && (evidence obstacles clearance conn s).drc_clean) := by
  unfold springbackStep tryRetractSegment evidence sprung
  cases stubDrcSegment (halfway s conn) obstacles clearance with
  | true => exact ⟨rfl, rfl⟩
  | false => exact ⟨rfl, rfl⟩

theorem evidence_springback (obstacles : List (Segment K)) (clearance : K) (conn : Connection K)
    (sr : ShoveResult K) :
    (springback obstacles clearance conn sr).springback_segments =
        sr.segments.map (evidence obstacles clearance conn) ∧
      ((springback obstacles clearance conn sr).drc_clean = true ↔
        ∀ s ∈ sr.segments, ¬ AnyNear obstacles clearance (sprung obstacles clearance conn s)) := by
  unfold springback
  induction sr.segments using reverseRecOn with
  | nil => exact ⟨rfl, by simp⟩
  | append_singleton path s ih =>
    obtain ⟨hsegments, hclean⟩ := ih
    obtain ⟨hstep, hstep'⟩ := springbackStep_evidence conn obstacles clearance
      (path.foldl (springbackStep conn obstacles clearance) _) s
    rw [foldl_concat, hstep, hstep', hsegments]
    refine ⟨by rw [map_append, map_singleton], ?_⟩
    rw [Bool.and_eq_true, hclean, evidence, stubDrcSegment_iff_near, forall_mem_append, forall_mem_singleton]

theorem vouched_springback_iff (obstacles : List (Segment K)) (clearance : K) (conn : Connection K)
    (sr : ShoveResult K) :
    Vouched obstacles clearance (springback obstacles clearance conn sr) ↔
      Trusty obstacles clearance conn sr.segments := by
  obtain ⟨hsegments, hclean⟩ := evidence_springback obstacles clearance conn sr
  have hnear : ∀ s, AnyNear obstacles clearance (sprung obstacles clearance conn s) ↔
      AnyNear obstacles clearance (halfway s conn) ∧ AnyNear obstacles clearance s := by
    intro s
    by_cases hhalf : AnyNear obstacles clearance (halfway s conn)
    · simp [sprung_of_near hhalf, hhalf]
    · simp [sprung_of_not_near hhalf, hhalf]
  have hclear : ((springback obstacles clearance conn sr).drc_clean = true →
      ∀ s ∈ (springback obstacles clearance conn sr).segments, BoxKeepsClear obstacles clearance s) ↔
      (∃ s ∈ sr.segments, AnyNear obstacles clearance (halfway s conn) ∧ AnyNear obstacles clearance s) ∨
        ∀ s ∈ sr.segments,
          (¬ AnyNear obstacles clearance (halfway s conn) →
            RoomAround obstacles clearance (halfway s conn).start (halfway s conn).stop) ∧
          (AnyNear obstacles clearance (halfway s conn) → RoomAround obstacles clearance s.start s.stop) := by
    rw [hclean, segments_springback, forall_mem_map, imp_iff_not_or]
    simp only [hnear, boxKeepsClear_iff]
    apply or_congr
    · push Not
      rfl
    · refine forall₂_congr fun s _ => ?_
      by_cases hhalf : AnyNear obstacles clearance (halfway s conn)
      · simp [sprung_of_near hhalf, hhalf]
      · simp [sprung_of_not_near hhalf, hhalf]
  have hreversed : (∀ b ∈ (springback obstacles clearance conn sr).springback_segments,
      stubDrcSegment b.coords.swap obstacles clearance = b.drc_clean) ↔
      ∀ s ∈ sr.segments,
        (¬ AnyNear obstacles clearance (halfway s conn) → ¬ AnyNear obstacles clearance (halfway s conn).swap) ∧
        (AnyNear obstacles clearance (halfway s conn) →
          (AnyNear obstacles clearance s.swap ↔ AnyNear obstacles clearance s)) := by
    rw [hsegments, forall_mem_map]
    refine forall₂_congr fun s _ => ?_
    rw [evidence, Bool.eq_iff_iff, stubDrcSegment_iff_near, stubDrcSegment_iff_near, not_iff_not]
    by_cases hhalf : AnyNear obstacles clearance (halfway s conn)
    · simp [sprung_of_near hhalf, hhalf]
    · simp [sprung_of_not_near hhalf, hhalf]
  exact ⟨fun h => ⟨hclear.mp h.clear, hreversed.mp h.reversed⟩,
    fun h => ⟨hclear.mpr h.clear, hreversed.mpr h.reversed⟩⟩

/-- A connection from the right to the left, and an obstacle that touches its right end. -/
def backRoad : Connection ℚ := ⟨10, 0, 0, 0, "NET1"⟩

def bollard : List (Segment ℚ) := [⟨10, -1, 12, 1⟩]

end ZapTrace.Shove
