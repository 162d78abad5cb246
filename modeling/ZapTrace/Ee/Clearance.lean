import ZapTrace.Ee.Drc

/-!
# What DRC-001 measures

The engine finds the closest points of two segments by their parameters. It takes the vector between the
two starts the wrong way around, so each parameter has the wrong sign before it is clamped: the
engine measures at the points next to the mirror images of the crossing of the two lines. These points
are on the segments, so what the check reports is too close; traces that cross need not be reported.

## Main results

* `segmentSegmentDist_atLeast_iff`: the engine's distance is that of the probed points
* `clearanceViolations_eq_nil_iff`: one report of a contact does not hide the first violation
* `checkClearance_exact_iff`: when the check is silent exactly on clear traces
-/

set_option linter.unusedSectionVars false

namespace ZapTrace.Routing.Drc

open Plane List

variable {K : Type} [Field K] [LinearOrder K]

/-- Two traces are on different layers or on one net, or their copper is `m` apart: so far that all
points of the two segments are `m` apart when half of each width is taken off. -/
def Clear (m : K) (first second : TraceSegment K) : Prop :=
  first.layer = second.layer → first.net_id ≠ second.net_id →
    ∀ x ∈ segment K first.start first.stop, ∀ y ∈ segment K second.start second.stop,
      (Gap.mk (distSq x y) (first.width / 2 + second.width / 2)).AtLeast m

/-- The points of two segments between which the engine takes the distance. When the segments are nearly
parallel, these are the ends of each with the nearest point of the other; otherwise the points nearest to
the mirror images, in the two starts, of the common point of the lines. -/
def Probed (a b c d x y : Point K) : Prop :=
  if cross (vec a b) (vec c d) ^ 2 < 1 / 10 ^ 12 then
    ((x = a ∨ x = b) ∧ y = nearest x c d) ∨ ((y = c ∨ y = d) ∧ x = nearest y a b)
  else
    x = nearest (mirror a (crossing a b c d)) a b ∧ y = nearest (mirror c (crossing a b c d)) c d

/-- Two traces of different nets on one layer that are too close at the points where the engine takes the
distance. -/
def ProbedTooClose (m : K) (first second : TraceSegment K) : Prop :=
  first.layer = second.layer ∧ first.net_id ≠ second.net_id ∧
    ∃ x y, Probed first.start first.stop second.start second.stop x y ∧
      ¬ (Gap.mk (distSq x y) (first.width / 2 + second.width / 2)).AtLeast m

variable [IsStrictOrderedRing K]

/-! ## The distance -/

theorem pointSegmentDist_eq (p a b : Point K) : pointSegmentDist p a b = distSq p (nearest p a b) := by
  rw [pointSegmentDist, nearest]
  split
  · rfl
  · -- the segment is a point
    rename_i hpos
    have hzero : vec a b = 0 := by
      by_contra hne
      exact hpos (dot_self_pos hne)
    simp [hzero, dot]

theorem dot_mul_dot_sub (u v : Point K) :
    dot u u * dot v v - dot u v * dot u v = cross u v ^ 2 := by
  simp only [dot, cross]
  ring

theorem sc_eq {u v : Point K} (w : Point K) (h : cross u v ≠ 0) :
    (dot u v * dot v w - dot v v * dot u w) / (dot u u * dot v v - dot u v * dot u v) =
      -(cross w v / cross u v) := by
  have hnumerator : dot u v * dot v w - dot v v * dot u w = -(cross w v * cross u v) := by
    simp only [dot, cross]
    ring
  rw [dot_mul_dot_sub, hnumerator, sq, neg_div, mul_div_mul_right _ _ h]

theorem tc_eq {u v : Point K} (w : Point K) (h : cross u v ≠ 0) :
    (dot u u * dot v w - dot u v * dot u w) / (dot u u * dot v v - dot u v * dot u v) =
      -(cross w u / cross u v) := by
  have hnumerator : dot u u * dot v w - dot u v * dot u w = -(cross w u * cross u v) := by
    simp only [dot, cross]
    ring
  rw [dot_mul_dot_sub, hnumerator, sq, neg_div, mul_div_mul_right _ _ h]

theorem segmentSegmentDist_of_not_parallel {a b c d : Point K}
    (h : ¬ cross (vec a b) (vec c d) ^ 2 < 1 / 10 ^ 12) :
    segmentSegmentDist a b c d =
      distSq (nearest (mirror a (crossing a b c d)) a b) (nearest (mirror c (crossing a b c d)) c d) := by
  have hcross : cross (vec a b) (vec c d) ≠ 0 := by
    intro hzero
    rw [hzero] at h
    exact h (by rw [zero_pow two_ne_zero]; positivity)
  have hab : vec a b ≠ 0 := fun hzero => hcross (by simp [hzero, cross])
  have hcd : vec c d ≠ 0 := fun hzero => hcross (by simp [hzero, cross])
  -- the crossing is at the opposite of each parameter
  have hfirst : nearest (mirror a (crossing a b c d)) a b =
      along a b (clamp (-(cross (vec a c) (vec c d) / cross (vec a b) (vec c d)))) := by
    rw [crossing, mirror_along, nearest_along hab]
  have hsecond : nearest (mirror c (crossing a b c d)) c d =
      along c d (clamp (-(cross (vec a c) (vec a b) / cross (vec a b) (vec c d)))) := by
    rw [crossing, along_crossing hcross, mirror_along, nearest_along hcd]
  rw [hfirst, hsecond, ← sc_eq _ hcross, ← tc_eq _ hcross]
  unfold segmentSegmentDist
  rw [if_neg]
  rw [dot_mul_dot_sub, abs_of_nonneg (sq_nonneg _)]
  exact h

theorem segmentSegmentDist_of_parallel {a b c d : Point K}
    (h : cross (vec a b) (vec c d) ^ 2 < 1 / 10 ^ 12) :
    segmentSegmentDist a b c d = endDistSq a b c d := by
  unfold segmentSegmentDist
  rw [if_pos]
  · simp only [pointSegmentDist_eq]
    rfl
  · rw [dot_mul_dot_sub, abs_of_nonneg (sq_nonneg _)]
    exact h

/-- **The engine's distance** is the least distance of the points it looks at. -/
theorem segmentSegmentDist_atLeast_iff (a b c d : Point K) (m : K) :
    AtLeast (segmentSegmentDist a b c d) m ↔ ∀ x y, Probed a b c d x y → AtLeast (distSq x y) m := by
  by_cases hparallel : cross (vec a b) (vec c d) ^ 2 < 1 / 10 ^ 12
  · rw [segmentSegmentDist_of_parallel hparallel]
    simp only [Probed, if_pos hparallel]
    obtain ⟨ha, hb, hc, hd⟩ := endDistSq_le a b c d
    constructor
    · rintro h x y (⟨rfl | rfl, rfl⟩ | ⟨rfl | rfl, rfl⟩)
      · exact h.mono ha
      · exact h.mono hb
      · rw [distSq_comm]
        exact h.mono hc
      · rw [distSq_comm]
        exact h.mono hd
    · intro h
      rcases endDistSq_eq a b c d with heq | heq | heq | heq <;> rw [heq]
      · exact h _ _ (.inl ⟨.inl rfl, rfl⟩)
      · exact h _ _ (.inl ⟨.inr rfl, rfl⟩)
      · have hprobed := h _ _ (.inr ⟨.inl rfl, rfl⟩)
        rwa [distSq_comm] at hprobed
      · have hprobed := h _ _ (.inr ⟨.inr rfl, rfl⟩)
        rwa [distSq_comm] at hprobed
  · rw [segmentSegmentDist_of_not_parallel hparallel]
    simp only [Probed, if_neg hparallel]
    constructor
    · rintro h x y ⟨rfl, rfl⟩
      exact h
    · intro h
      exact h _ _ ⟨rfl, rfl⟩

theorem Probed.mem {a b c d x y : Point K} (h : Probed a b c d x y) :
    x ∈ segment K a b ∧ y ∈ segment K c d := by
  rw [Probed] at h
  split at h
  · rcases h with ⟨rfl | rfl, rfl⟩ | ⟨rfl | rfl, rfl⟩
    · exact ⟨left_mem_segment K _ _, nearest_mem _ _ _⟩
    · exact ⟨right_mem_segment K _ _, nearest_mem _ _ _⟩
    · exact ⟨nearest_mem _ _ _, left_mem_segment K _ _⟩
    · exact ⟨nearest_mem _ _ _, right_mem_segment K _ _⟩
  · obtain ⟨rfl, rfl⟩ := h
    exact ⟨nearest_mem _ _ _, nearest_mem _ _ _⟩
variable {first second : TraceSegment K}

theorem ProbedTooClose.not_clear {m : K} (h : ProbedTooClose m first second) : ¬ Clear m first second := by
  obtain ⟨hlayer, hnet, x, y, hprobed, hclose⟩ := h
  intro hclear
  exact hclose (hclear hlayer hnet x hprobed.mem.1 y hprobed.mem.2)

theorem probedTooClose_iff {m : K} :
    ProbedTooClose m first second ↔ ¬ (first.net_id = second.net_id ∨ first.layer ≠ second.layer) ∧
      ¬ (tracePairClearance first second).AtLeast m := by
  have hprobes : (tracePairClearance first second).AtLeast m ↔ _ :=
    segmentSegmentDist_atLeast_iff first.start first.stop second.start second.stop _
  rw [hprobes]
  simp only [ProbedTooClose, Gap.AtLeast, tracePairClearance, not_or, not_not, not_forall, exists_prop]
  tauto

/-! ## The check -/

variable (fmt : Format K)

theorem clearanceViolation_of_not {m : K} {reported : List (ContactKey K)} (h : ¬ ProbedTooClose m first second) :
    clearanceViolation fmt m reported first second = (none, reported) := by
  rw [probedTooClose_iff] at h
  unfold clearanceViolation
  split
  · rfl
  · rename_i hpair
    rw [if_pos (not_not.mp fun hfar => h ⟨hpair, hfar⟩)]

theorem clearanceViolation_of_probedTooClose {m : K} (h : ProbedTooClose m first second) :
    (clearanceViolation fmt m [] first second).1 ≠ none := by
  rw [probedTooClose_iff] at h
  unfold clearanceViolation
  rw [if_neg h.1, if_neg h.2, if_neg]
  · simp
  · rintro ⟨key, -, hkey⟩
    exact absurd hkey not_mem_nil

/-- **No pair is hidden** by the contacts of others: the first that is too close is reported. -/
theorem clearanceViolations_eq_nil_iff (m : K) (pairs : List (TraceSegment K × TraceSegment K)) :
    clearanceViolations fmt m [] pairs = [] ↔ ∀ pair ∈ pairs, ¬ ProbedTooClose m pair.1 pair.2 := by
  induction pairs with
  | nil => simp [clearanceViolations]
  | cons pair pairs ih =>
    obtain ⟨first, second⟩ := pair
    by_cases hclose : ProbedTooClose m first second
    · have hreport := clearanceViolation_of_probedTooClose fmt hclose
      constructor
      · intro hnil
        rw [clearanceViolations] at hnil
        obtain ⟨hhead, -⟩ := append_eq_nil_iff.mp hnil
        exact absurd (Option.toList_eq_nil_iff.mp hhead) hreport
      · intro hall
        exact absurd hclose (hall (first, second) mem_cons_self)
    · -- nothing is reported, and no contact is added
      rw [clearanceViolations, clearanceViolation_of_not fmt hclose]
      show clearanceViolations fmt m [] pairs = [] ↔ _
      rw [ih, forall_mem_cons]
      exact (and_iff_right hclose).symm

theorem checkClearance_eq_nil_iff (design : Design K) :
    checkClearance fmt design = [] ↔
      (traceSegments design).Pairwise fun first second =>
        ¬ ProbedTooClose design.board.min_clearance_mm first second := by
  rw [checkClearance, clearanceViolations_eq_nil_iff]
  exact forall_tracePairs_iff
    (R := fun first second => ¬ ProbedTooClose design.board.min_clearance_mm first second)

theorem checkClearance_eq_nil_of_clear {design : Design K}
    (h : (traceSegments design).Pairwise (Clear design.board.min_clearance_mm)) :
    checkClearance fmt design = [] :=
  (checkClearance_eq_nil_iff fmt design).mpr (h.imp fun hclear hclose => hclose.not_clear hclear)

/-- **DRC-001 is right** exactly when all pairs of traces are clear, or some pair is too close already at
the points where the engine takes the distance. -/
theorem checkClearance_exact_iff (design : Design K) :
    (checkClearance fmt design = [] ↔
        (traceSegments design).Pairwise (Clear design.board.min_clearance_mm)) ↔
      (traceSegments design).Pairwise (Clear design.board.min_clearance_mm) ∨
        ∃ first second, [first, second].Sublist (traceSegments design) ∧
          ProbedTooClose design.board.min_clearance_mm first second := by
  have hsilent := checkClearance_eq_nil_iff fmt design
  rw [pairwise_iff_forall_sublist] at hsilent
  constructor
  · intro hexact
    by_cases hclear : (traceSegments design).Pairwise (Clear design.board.min_clearance_mm)
    · exact .inl hclear
    · by_contra hnot
      obtain ⟨-, hnone⟩ := not_or.mp hnot
      exact hclear (hexact.mp (hsilent.mpr fun {first second} hsub hclose =>
        hnone ⟨first, second, hsub, hclose⟩))
  · rintro (hclear | ⟨first, second, hsub, hclose⟩)
    · exact iff_of_true (checkClearance_eq_nil_of_clear fmt hclear) hclear
    · refine iff_of_false (fun hnil => hsilent.mp hnil hsub hclose) fun hclear => ?_
      exact hclose.not_clear (pairwise_iff_forall_sublist.mp hclear hsub)

/-- Two traces that cross in the middle of each. -/
def crossingBoard : Design ℚ := boardOf [traceOf "top" "A" (1 / 5) (0, 0) (10, 0), traceOf "top" "B" (1 / 5) (5, -5) (5, 5)]

/-- Two traces side by side. -/
def closeBoard : Design ℚ := boardOf [traceOf "top" "A" (1 / 5) (0, 0) (10, 0), traceOf "top" "B" (1 / 5) (0, 1 / 4) (10, 1 / 4)]

-- for `decide` below
attribute [local semireducible] Rat.add Rat.sub Rat.mul Rat.inv

/-- The check is silent on two traces that cross. -/
theorem not_checkClearance_exact_crossingBoard :
    ¬ (checkClearance plainFormat crossingBoard = [] ↔
      (traceSegments crossingBoard).Pairwise (Clear crossingBoard.board.min_clearance_mm)) := by
  have hsilent : checkClearance plainFormat crossingBoard = [] := by decide
  intro hexact
  have hclear := rel_of_pairwise_cons (hexact.mp hsilent) mem_cons_self rfl (by decide)
  -- the middle of both
  have hfirst : along (0, 0) (10, 0) (1 / 2 : ℚ) = (5, 0) := by decide
  have hsecond : along (5, -5) (5, 5) (1 / 2 : ℚ) = (5, 0) := by decide
  have hgap := hclear (5, 0) (hfirst ▸ along_mem (by norm_num) (by norm_num))
    (5, 0) (hsecond ▸ along_mem (by norm_num) (by norm_num))
  revert hgap
  decide

/-- Traces side by side are measured at their ends. -/
theorem checkClearance_exact_closeBoard :
    checkClearance plainFormat closeBoard = [] ↔
      (traceSegments closeBoard).Pairwise (Clear closeBoard.board.min_clearance_mm) := by
  have hclose : ProbedTooClose closeBoard.board.min_clearance_mm
      (traceOf "top" "A" (1 / 5) (0, 0) (10, 0)) (traceOf "top" "B" (1 / 5) (0, 1 / 4) (10, 1 / 4)) :=
    probedTooClose_iff.mpr (by decide)
  exact (checkClearance_exact_iff plainFormat closeBoard).mpr
    (.inr ⟨_, _, List.Sublist.refl _, hclose⟩)

end ZapTrace.Routing.Drc
