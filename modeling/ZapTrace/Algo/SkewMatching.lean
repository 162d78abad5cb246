import ZapTrace.Algo.MeanderGain

/-!
# Length matching of a pair

The skew of a pair is the difference of the lengths of its traces. Length matching compares the lengths of the paths,
where that of the positive net includes the jumps from trace to trace, and gives teeth to the shorter path. It makes
the skew worse when one tooth adds more than twice the difference: the tooth takes the shorter path too far past the
longer one.

## Main results

* `skewKept_iff`: when the skew is kept
-/

namespace ZapTrace.DiffPair

open Polyline Real List

open Plane (Point)
open scoped Plane
open Polyline (pieces)
open Routing.Fillet (plainTrace)

/-! ## The skew -/

def tracesOf {K : Type} (net_id : String) (traces : List (Routing.TraceSegment K)) : List (Routing.TraceSegment K) :=
  traces.filter fun t => t.net_id = net_id

noncomputable def skew (pair : PairNets) (traces : List (Routing.TraceSegment ℝ)) : ℝ :=
  |totalLength (tracesOf pair.pos_id traces) - totalLength (tracesOf pair.neg_id traces)|

variable {router : DiffPairRouter ℝ} {pair : PairNets}

/-- What `_route_single_pair` returns without length matching. -/
noncomputable def unmatched (router : DiffPairRouter ℝ) (pair : PairNets) (pos_result : PairResult ℝ) :
    List (Routing.TraceSegment ℝ) :=
  pos_result.traces ++
    drawPath (negVertices sqrt router (tracesToVertices sqrt pos_result.traces)) router.width pair.neg_id

/-- The skew of the returned traces is small, or no larger than without length matching. -/
def SkewKept (router : DiffPairRouter ℝ) (pair : PairNets) (pos_result : PairResult ℝ) : Prop :=
  skew pair (routeSinglePair sqrt router pair pos_result).traces ≤ router.max_length_mismatch ∨
    skew pair (routeSinglePair sqrt router pair pos_result).traces ≤
      skew pair (unmatched router pair pos_result)

theorem totalLength_drawPath (vertices : List (Point ℝ)) (width : ℝ) (net_id : String) :
    totalLength (drawPath vertices width net_id) = pathLength sqrt vertices := by
  unfold totalLength drawPath pathLength
  rw [len_eq_sum, map_map]
  rfl
variable {vertices : List (Point ℝ)}

theorem net_id_of_mem_drawPath {width : ℝ} {net_id : String} {t : Routing.TraceSegment ℝ}
    (ht : t ∈ drawPath vertices width net_id) : t.net_id = net_id := by
  obtain ⟨piece, -, rfl⟩ := mem_map.mp ht
  rfl

section Append

variable {traces : List (Routing.TraceSegment ℝ)} (htraces : ∀ t ∈ traces, t.net_id = pair.pos_id)

include htraces

theorem tracesOf_pos_append (vertices : List (Point ℝ)) (width : ℝ) :
    tracesOf pair.pos_id (traces ++ drawPath vertices width pair.neg_id) = traces := by
  unfold tracesOf
  rw [filter_append, filter_eq_self.mpr fun t ht => decide_eq_true (htraces t ht),
    filter_eq_nil_iff.mpr, append_nil]
  intro t ht
  rw [net_id_of_mem_drawPath ht, decide_eq_true_eq]
  exact pair.distinct.symm

theorem tracesOf_neg_append (vertices : List (Point ℝ)) (width : ℝ) :
    tracesOf pair.neg_id (traces ++ drawPath vertices width pair.neg_id) = drawPath vertices width pair.neg_id := by
  unfold tracesOf
  rw [filter_append, filter_eq_self.mpr fun t ht => decide_eq_true (net_id_of_mem_drawPath ht),
    filter_eq_nil_iff.mpr, nil_append]
  intro t ht
  rw [htraces t ht, decide_eq_true_eq]
  exact pair.distinct

theorem skew_append (vertices : List (Point ℝ)) (width : ℝ) :
    skew pair (traces ++ drawPath vertices width pair.neg_id) =
      |totalLength traces - pathLength sqrt vertices| := by
  rw [skew, tracesOf_pos_append htraces, tracesOf_neg_append htraces, totalLength_drawPath]

end Append

/-! ## What the teeth may add -/

/-- Teeth on the positive path: there is no room for them, or a tooth adds at most twice what is needed, and the jumps
of the path. -/
def PositiveFits (amplitude needed jumps best_len : ℝ) : Prop :=
  best_len < amplitude * 3 ∨ toothGain amplitude best_len ≤ 2 * needed + jumps

/-- Neighbours are equal or not near each other, and the longest piece is not tiny. -/
def Clear (vertices : List (Point ℝ)) : Prop :=
  Polyline.Tidy (mathDist sqrt) (1 / 10000) vertices ∧ 1 / 2000 < longest vertices

/-- Teeth on the negative path. -/
structure NegativeFits (router : DiffPairRouter ℝ) (total pos_len : ℝ) (neg_vertices : List (Point ℝ)) : Prop where
  /-- The traces are one chain, so the path is as long as they are. -/
  chain : Clear neg_vertices → total = pos_len →
    toothGain router.meander_amplitude (longest neg_vertices) ≤ 2 * (pos_len - pathLength sqrt neg_vertices)
  /-- The path jumps from trace to trace. -/
  jumps : Clear neg_vertices → total ≠ pos_len →
    |total - pathLength sqrt neg_vertices -
        meanderGain router.meander_amplitude (pos_len - pathLength sqrt neg_vertices) (longest neg_vertices)| ≤
      max router.max_length_mismatch |total - pathLength sqrt neg_vertices|
  /-- Cleaning the path changes more than the teeth. -/
  near : ¬ Clear neg_vertices →
    |total - pathLength sqrt (addMeanders sqrt neg_vertices pos_len router.meander_amplitude
        (router.meander_amplitude * 3))| ≤
      max router.max_length_mismatch |total - pathLength sqrt neg_vertices|

theorem addMeanders_of_lt {target_length amplitude : ℝ} (hamplitude : 0 < amplitude)
    (hroom : longest vertices < amplitude * 3) :
    addMeanders sqrt vertices target_length amplitude (amplitude * 3) = vertices := by
  unfold addMeanders
  dsimp only
  rw [(bestSegment_eq_none_iff (by linarith)).mpr hroom]
  exact ite_self vertices

theorem abs_sub_le_iff_positiveFits {total neg_len amplitude mismatch : ℝ} (hamplitude : 0 < amplitude)
    (hmismatch : 0 ≤ mismatch) (hclear : amplitude * 3 ≤ longest vertices → Clear vertices)
    (htotal : total ≤ pathLength sqrt vertices) (hneeded : mismatch < neg_len - pathLength sqrt vertices) :
    (|pathLength sqrt (addMeanders sqrt vertices neg_len amplitude (amplitude * 3)) - neg_len| ≤ mismatch ∨
      |pathLength sqrt (addMeanders sqrt vertices neg_len amplitude (amplitude * 3)) - neg_len| ≤
        |total - neg_len|) ↔
      PositiveFits amplitude (neg_len - pathLength sqrt vertices) (pathLength sqrt vertices - total)
        (longest vertices) := by
  have hbefore : |total - neg_len| = neg_len - total := by
    rw [abs_of_nonpos (by linarith)]
    ring
  rcases lt_or_ge (longest vertices) (amplitude * 3) with hroom | hroom
  · rw [addMeanders_of_lt hamplitude hroom]
    refine iff_of_true (Or.inr ?_) (Or.inl hroom)
    rw [hbefore, abs_of_nonpos (by linarith)]
    linarith
  · obtain ⟨htidy, hlong⟩ := hclear hroom
    rw [pathLength_addMeanders hamplitude htidy hlong (by linarith) hroom, hbefore]
    have hiff := meanderGain_le_iff hamplitude (by linarith : 3 * amplitude ≤ longest vertices)
      (by linarith : 0 < neg_len - pathLength sqrt vertices) (sub_nonneg.mpr htotal)
    have hnonneg : 0 ≤ meanderGain amplitude (neg_len - pathLength sqrt vertices) (longest vertices) :=
      gainOf_nonneg _
    rw [PositiveFits, or_iff_right (not_lt.mpr hroom), ← hiff]
    generalize meanderGain amplitude (neg_len - pathLength sqrt vertices) (longest vertices) = gain at hnonneg ⊢
    constructor
    · rintro (hle | hle) <;> linarith [(abs_le.mp hle).2]
    · exact fun hle => Or.inr (abs_le.mpr ⟨by linarith, by linarith⟩)

theorem abs_sub_le_iff_negativeFits {total pos_len : ℝ} (hamplitude : 0 < router.meander_amplitude)
    (hmismatch : 0 ≤ router.max_length_mismatch)
    (hneeded : router.max_length_mismatch < pos_len - pathLength sqrt vertices) :
    (|total - pathLength sqrt (addMeanders sqrt vertices pos_len router.meander_amplitude
        (router.meander_amplitude * 3))| ≤ router.max_length_mismatch ∨
      |total - pathLength sqrt (addMeanders sqrt vertices pos_len router.meander_amplitude
        (router.meander_amplitude * 3))| ≤ |total - pathLength sqrt vertices|) ↔
      longest vertices < router.meander_amplitude * 3 ∨ NegativeFits router total pos_len vertices := by
  rcases lt_or_ge (longest vertices) (router.meander_amplitude * 3) with hroom | hroom
  · rw [addMeanders_of_lt hamplitude hroom]
    exact iff_of_true (Or.inr (le_refl _)) (Or.inl hroom)
  · rw [or_iff_right (not_lt.mpr hroom), ← le_max_iff]
    by_cases hclear : Clear vertices
    · have hpos : 0 < pos_len - pathLength sqrt vertices := by linarith
      have hlength := pathLength_addMeanders hamplitude hclear.1 hclear.2 hpos hroom
      have hlaw : (total = pos_len → (|total - (pathLength sqrt vertices +
            meanderGain router.meander_amplitude (pos_len - pathLength sqrt vertices) (longest vertices))| ≤
          max router.max_length_mismatch |total - pathLength sqrt vertices| ↔
          toothGain router.meander_amplitude (longest vertices) ≤
            2 * (pos_len - pathLength sqrt vertices))) := by
        intro heq
        have hiff := meanderGain_le_iff hamplitude (by linarith : 3 * router.meander_amplitude ≤ longest vertices) hpos
          (le_refl 0)
        have hnonneg : 0 ≤ meanderGain router.meander_amplitude (pos_len - pathLength sqrt vertices)
            (longest vertices) := gainOf_nonneg _
        rw [add_zero] at hiff
        rw [heq, ← hiff, abs_of_pos hpos, max_eq_right hneeded.le, abs_le]
        generalize meanderGain router.meander_amplitude (pos_len - pathLength sqrt vertices) (longest vertices) =
          gain at hnonneg ⊢
        constructor
        · rintro ⟨hle, -⟩
          linarith
        · exact fun hle => ⟨by linarith, by linarith⟩
      rw [hlength]
      constructor
      · intro hle
        refine ⟨fun _ heq => (hlaw heq).mp hle, fun _ _ => ?_, fun hnot => absurd hclear hnot⟩
        rw [sub_sub]
        exact hle
      · intro hfits
        by_cases heq : total = pos_len
        · exact (hlaw heq).mpr (hfits.chain hclear heq)
        · rw [← sub_sub]
          exact hfits.jumps hclear heq
    · exact ⟨fun hle => ⟨fun h => absurd h hclear, fun h => absurd h hclear, fun _ => hle⟩,
        fun hfits => hfits.near hclear⟩

/-! ## When the skew is kept -/

/-- The lengths of the paths are close, or the teeth fit that the shorter path gets. -/
def LengthsMatch (router : DiffPairRouter ℝ) (traces : List (Routing.TraceSegment ℝ)) : Prop :=
  let pos_vertices := tracesToVertices sqrt traces
  let neg_vertices := negVertices sqrt router pos_vertices
  let pos_len := pathLength sqrt pos_vertices
  let neg_len := pathLength sqrt neg_vertices
  |pos_len - neg_len| ≤ router.max_length_mismatch ∨
    (pos_len < neg_len ∧ PositiveFits router.meander_amplitude (neg_len - pos_len) (pos_len - totalLength traces)
      (longest pos_vertices)) ∨
    (neg_len < pos_len ∧ (longest neg_vertices < router.meander_amplitude * 3 ∨
      NegativeFits router (totalLength traces) pos_len neg_vertices))

theorem clear_tracesToVertices {traces : List (Routing.TraceSegment ℝ)} (htraces : ∀ t ∈ traces, TraceOnGrid t)
    {bound : ℝ} (hbound : 0 < bound) (hlong : bound ≤ longest (tracesToVertices sqrt traces)) :
    Clear (tracesToVertices sqrt traces) := by
  have hchain := isChain_tracesToVertices traces
  refine ⟨tidy_of_isChain hchain, ?_⟩
  cases hpieces : pieces (tracesToVertices sqrt traces) with
  | nil =>
    rw [longest, hpieces] at hlong
    exact absurd hlong (not_le.mpr hbound)
  | cons s segments =>
    have hs : s ∈ pieces (tracesToVertices sqrt traces) := hpieces ▸ mem_cons_self
    have hfar := rel_of_mem_pieces hchain hs
    obtain ⟨hfst, hsnd⟩ := mem_of_mem_pieces hs
    have hne : s.1 ≠ s.2 := by
      intro heq
      rw [heq, mathDist_self] at hfar
      norm_num at hfar
    have hgrid := (onGrid_of_mem_tracesToVertices htraces hfst).le_mathDist
      (onGrid_of_mem_tracesToVertices htraces hsnd) hne
    have hle := le_longest hs
    linarith

theorem traces_routeSinglePair {pos_result : PairResult ℝ} (hne : pos_result.traces ≠ []) :
    (routeSinglePair sqrt router pair pos_result).traces =
      ((matchLengths sqrt router (tracesToVertices sqrt pos_result.traces)
          (negVertices sqrt router (tracesToVertices sqrt pos_result.traces))).1.elim pos_result.traces
          fun vertices => drawPath vertices router.width pair.pos_id) ++
        drawPath (matchLengths sqrt router (tracesToVertices sqrt pos_result.traces)
          (negVertices sqrt router (tracesToVertices sqrt pos_result.traces))).2 router.width
            pair.neg_id := by
  unfold routeSinglePair
  split
  next hnil => exact absurd hnil hne
  next =>
    dsimp only
    cases (matchLengths sqrt router (tracesToVertices sqrt pos_result.traces)
      (negVertices sqrt router (tracesToVertices sqrt pos_result.traces))).1 <;> rfl

theorem skewKept_iff_lengthsMatch (hamplitude : 0 < router.meander_amplitude)
    (hmismatch : 0 ≤ router.max_length_mismatch) {pos_result : PairResult ℝ}
    (htraces : ∀ t ∈ pos_result.traces, TraceOnGrid t ∧ t.net_id = pair.pos_id) :
    SkewKept router pair pos_result ↔ LengthsMatch router pos_result.traces := by
  have hgrid : ∀ t ∈ pos_result.traces, TraceOnGrid t := fun t ht => (htraces t ht).1
  have hnet : ∀ t ∈ pos_result.traces, t.net_id = pair.pos_id := fun t ht => (htraces t ht).2
  by_cases hempty : pos_result.traces = []
  · have hnothing : (routeSinglePair sqrt router pair pos_result).traces = [] := by
      unfold routeSinglePair
      rw [hempty]
    have hskew : skew pair [] = 0 := by simp [skew, tracesOf]
    refine iff_of_true (Or.inl ?_) (Or.inl ?_)
    · rw [hnothing, hskew]
      exact hmismatch
    · rw [hempty]
      simpa [tracesToVertices, negVertices, parallelOffset] using hmismatch
  have htotal := totalLength_le hgrid
  have hmatch : matchLengths sqrt router (tracesToVertices sqrt pos_result.traces)
      (negVertices sqrt router (tracesToVertices sqrt pos_result.traces)) = _ := rfl
  have hclear := fun h => clear_tracesToVertices hgrid (by linarith : 0 < router.meander_amplitude * 3) h
  unfold SkewKept LengthsMatch unmatched
  rw [traces_routeSinglePair hempty, skew_append hnet]
  dsimp only
  generalize tracesToVertices sqrt pos_result.traces = pos_vertices at htotal hclear ⊢
  generalize negVertices sqrt router pos_vertices = neg_vertices
  unfold matchLengths
  dsimp only
  by_cases hclose : |pathLength sqrt pos_vertices - pathLength sqrt neg_vertices| ≤
      router.max_length_mismatch
  · rw [if_neg (not_lt.mpr hclose)]
    dsimp only [Option.elim_none]
    rw [skew_append hnet]
    exact iff_of_true (Or.inr (le_refl _)) (Or.inl hclose)
  rw [if_pos (not_le.mp hclose), or_iff_right hclose]
  rcases lt_or_ge (pathLength sqrt pos_vertices) (pathLength sqrt neg_vertices) with hlt | hge
  · -- the positive path is drawn again
    rw [abs_of_neg (sub_neg.mpr hlt), neg_sub, not_le] at hclose
    rw [if_pos hlt]
    dsimp only [Option.elim_some]
    rw [skew_append fun t ht => net_id_of_mem_drawPath ht, totalLength_drawPath,
      abs_sub_le_iff_positiveFits hamplitude hmismatch hclear htotal hclose]
    constructor
    · exact fun hfits => Or.inl ⟨hlt, hfits⟩
    · rintro (⟨-, hfits⟩ | ⟨hgt, -⟩)
      · exact hfits
      · exact absurd hlt hgt.not_gt
  · rw [abs_of_nonneg (sub_nonneg.mpr hge), not_le] at hclose
    rw [if_neg (not_lt.mpr hge)]
    dsimp only [Option.elim_none]
    rw [skew_append hnet, abs_sub_le_iff_negativeFits hamplitude hmismatch hclose]
    constructor
    · exact fun hfits => Or.inr ⟨by linarith, hfits⟩
    · rintro (⟨hlt, -⟩ | ⟨-, hfits⟩)
      · exact absurd hge (not_le.mpr hlt)
      · exact hfits

/-- **When the skew is kept.** The lengths of the paths differ by no more than the mismatch, or the shorter path has no
piece of three amplitudes, or the teeth fit. -/
theorem skewKept_iff (hamplitude : 0 < router.meander_amplitude) (hmismatch : 0 ≤ router.max_length_mismatch)
    (resolution via_pad via_hole width_mm : ℚ) (edge_paths : List (List GridPos)) :
    SkewKept router pair (gridResult resolution via_pad via_hole pair width_mm edge_paths) ↔
      LengthsMatch router (gridTraces resolution pair width_mm edge_paths) := by
  rw [skewKept_iff_lengthsMatch hamplitude hmismatch, traces_gridResult]
  intro t ht
  rw [traces_gridResult] at ht
  exact traceOnGrid_gridTraces ht

/-! ## A pair with one corner -/

def plainPair : PairNets where
  pos_id := "n1"
  neg_id := "n2"
  distinct := by decide

/-- The parameters of a router that is given none. -/
noncomputable def defaultRouter : DiffPairRouter ℝ where
  gap := 1 / 5
  width := 1 / 5
  max_length_mismatch := 1 / 2
  meander_amplitude := 1

/-- Ten millimetres to the right and ten up, on the second layer, in cells of half a millimetre. -/
def oneCorner : List (List GridPos) := [[⟨0, 0, 1⟩, ⟨20, 0, 1⟩, ⟨20, 20, 1⟩]]

theorem skewKept_iff_oneCorner :
    (0 < defaultRouter.meander_amplitude ∧ 0 ≤ defaultRouter.max_length_mismatch) ∧
      (SkewKept defaultRouter plainPair (gridResult (1 / 2) (3 / 5) (3 / 10) plainPair (1 / 5) oneCorner) ↔
        LengthsMatch defaultRouter (gridTraces (1 / 2) plainPair (1 / 5) oneCorner)) := by
  have hamplitude : 0 < defaultRouter.meander_amplitude := one_pos
  have hmismatch : 0 ≤ defaultRouter.max_length_mismatch := by norm_num [defaultRouter]
  exact ⟨⟨hamplitude, hmismatch⟩, skewKept_iff hamplitude hmismatch _ _ _ _ _⟩

def corner (layer : ℤ) : List (List GridPos) := [[⟨0, 0, layer⟩, ⟨20, 0, layer⟩, ⟨20, 20, layer⟩]]

theorem gridTraces_corner (layer : ℤ) :
    gridTraces (1 / 2) plainPair (1 / 5) (corner layer) =
      [plainTrace ("layer_" ++ toString layer) ((0, 0) : Point ℝ) (10, 0) (1 / 5) "n1",
        plainTrace ("layer_" ++ toString layer) (10, 0) (10, 10) (1 / 5) "n1"] := by
  have horigin : placeOf (1 / 2) ⟨0, 0, 0⟩ = (0, 0) := by with_unfolding_all decide
  have hcorner : placeOf (1 / 2) ⟨20, 0, 0⟩ = (10, 0) := by with_unfolding_all decide
  have hend : placeOf (1 / 2) ⟨20, 20, 0⟩ = (10, 10) := by with_unfolding_all decide
  show [plainTrace ("layer_" ++ toString layer) (castPoint (placeOf (1 / 2) ⟨0, 0, 0⟩))
      (castPoint (placeOf (1 / 2) ⟨20, 0, 0⟩)) ((1 / 5 : ℚ) : ℝ) "n1",
    plainTrace ("layer_" ++ toString layer) (castPoint (placeOf (1 / 2) ⟨20, 0, 0⟩))
      (castPoint (placeOf (1 / 2) ⟨20, 20, 0⟩)) ((1 / 5 : ℚ) : ℝ) "n1"] = _
  rw [horigin, hcorner, hend]
  simp [castPoint]

theorem mathDist_upright (x y y' : ℝ) : mathDist sqrt (x, y) (x, y') = |y - y'| := by
  unfold mathDist
  rw [sub_self, zero_pow two_ne_zero, zero_add, sqrt_sq_eq_abs]

theorem tracesToVertices_corner (layer : ℤ) :
    tracesToVertices sqrt (gridTraces (1 / 2) plainPair (1 / 5) (corner layer)) =
      [(0, 0), (10, 0), (10, 10)] := by
  have hright : mathDist sqrt (0, 0) (10, 0) = 10 := by norm_num [mathDist_axis]
  have hup : mathDist sqrt (10, 0) (10, 10) = 10 := by norm_num [mathDist_upright]
  rw [gridTraces_corner]
  unfold tracesToVertices dedupeVertices
  simp only [traceVertices, plainTrace, mathDist_self, thin]
  rw [if_neg (by norm_num), if_neg (by norm_num), append_nil, singleton_append, thinFrom, hright,
    if_pos (by norm_num), thinFrom, hup, if_pos (by norm_num), thinFrom]

theorem negVertices_oneCorner :
    negVertices sqrt defaultRouter [(0, 0), (10, 0), (10, 10)] =
      [(0, -(2 / 5)), (10 + 2 / 5 / sqrt 2, -(2 / 5 / sqrt 2)), (10 + 2 / 5, 10)] := by
  have hten : sqrt (10 * 10) = 10 := sqrt_mul_self (by norm_num)
  have hroot : (1 : ℝ) ≤ sqrt 2 := le_sqrt_of_sq_le (by norm_num)
  have hright : unitVector sqrt ((10, 0) : Point ℝ) = (1, 0) := by
    unfold unitVector
    dsimp only
    rw [mul_zero, add_zero, hten, if_neg (by norm_num), zero_div, div_self (by norm_num)]
  have hup : unitVector sqrt ((0, 10) : Point ℝ) = (0, 1) := by
    unfold unitVector
    dsimp only
    rw [mul_zero, zero_add, hten, if_neg (by norm_num), zero_div, div_self (by norm_num)]
  have hstart : vertexDirection sqrt [((0, 0) : Point ℝ), (10, 0), (10, 10)] 0 = (10, 0) := by
    norm_num [vertexDirection, vertexAt, Plane.vec]
  have hcorner : vertexDirection sqrt [((0, 0) : Point ℝ), (10, 0), (10, 10)] 1 = (1, 1) := by
    have hin : Plane.vec ((0, 0) : Point ℝ) (10, 0) = (10, 0) := by norm_num [Plane.vec]
    have hout : Plane.vec ((10, 0) : Point ℝ) (10, 10) = (0, 10) := by norm_num [Plane.vec]
    simp [vertexDirection, vertexAt, hin, hout, hright, hup]
  have hend : vertexDirection sqrt [((0, 0) : Point ℝ), (10, 0), (10, 10)] 2 = (0, 10) := by
    norm_num [vertexDirection, vertexAt, Plane.vec]
  have hoffset : -(defaultRouter.gap + defaultRouter.width) = -(2 / 5) := by norm_num [defaultRouter]
  unfold negVertices parallelOffset
  rw [hoffset, if_neg (by simp)]
  show [offsetAt sqrt _ _ 0, offsetAt sqrt _ _ 1, offsetAt sqrt _ _ 2] = _
  unfold offsetAt offsetVertex
  dsimp only
  rw [hstart, hcorner, hend]
  have hfirst : sqrt (10 * 10 + 0 * 0) = 10 := by rw [mul_zero, add_zero, hten]
  have hlast : sqrt (0 * 0 + 10 * 10) = 10 := by rw [mul_zero, zero_add, hten]
  have hmiddle : sqrt (1 * 1 + 1 * 1) = sqrt 2 := by norm_num
  dsimp only
  rw [hfirst, hmiddle, hlast, if_neg (by norm_num), if_neg (by norm_num; linarith), if_neg (by norm_num)]
  simp only [Option.getD_some, vertexAt, getD_cons_zero, getD_cons_succ, cons.injEq, Prod.mk.injEq,
    and_true]
  refine ⟨⟨?_, ?_⟩, ⟨?_, ?_⟩, ?_, ?_⟩ <;> ring

/-- The offset path is longer than the path, by less than an amplitude. -/
theorem pathLength_negVertices_oneCorner :
    pathLength sqrt [((0, 0) : Point ℝ), (10, 0), (10, 10)] = 20 ∧
      20 + 1 / 2 <
        pathLength sqrt (negVertices sqrt defaultRouter [((0, 0) : Point ℝ), (10, 0), (10, 10)]) ∧
      pathLength sqrt (negVertices sqrt defaultRouter [((0, 0) : Point ℝ), (10, 0), (10, 10)]) < 20 + 1 := by
  have hright : mathDist sqrt (0, 0) (10, 0) = 10 := by norm_num [mathDist_axis]
  have hup : mathDist sqrt (10, 0) (10, 10) = 10 := by norm_num [mathDist_upright]
  have hroot : (7 / 5 : ℝ) ≤ sqrt 2 := le_sqrt_of_sq_le (by norm_num)
  have hroot' : sqrt 2 ≤ 3 / 2 := sqrt_le_iff.mpr ⟨by norm_num, by norm_num⟩
  -- the shift of the corner in each direction
  have hlow : (4 / 15 : ℝ) ≤ 2 / 5 / sqrt 2 := by
    rw [le_div_iff₀ (by linarith)]
    linarith
  have hhigh : 2 / 5 / sqrt 2 ≤ (2 / 7 : ℝ) := by
    rw [div_le_iff₀ (by linarith)]
    linarith
  rw [negVertices_oneCorner]
  generalize 2 / 5 / sqrt 2 = shift at hlow hhigh
  have hfirst := abs_fst_sub_le (0, -(2 / 5)) (10 + shift, -shift)
  have hfirst' := mathDist_le (0, -(2 / 5)) (10 + shift, -shift)
  have hlast := mathDist_le (10 + shift, -shift) (10 + 2 / 5, 10)
  have hlast' : 10 + shift ≤ mathDist sqrt (10 + shift, -shift) (10 + 2 / 5, 10) := by
    apply le_sqrt_of_sq_le
    dsimp only
    nlinarith [sq_nonneg (10 + shift - (10 + 2 / 5))]
  dsimp only at hfirst hfirst' hlast
  rw [abs_of_neg (by linarith)] at hfirst
  rw [abs_of_neg (by linarith), abs_of_neg (by linarith)] at hfirst' hlast
  unfold pathLength
  simp only [len_cons_cons, len_singleton, hright, hup]
  refine ⟨by norm_num, by linarith, by linarith⟩

/-- The corner makes the negative path longer by more than the mismatch, and the tooth on the positive path adds more
than three times that: the traces end up further apart. -/
theorem not_skewKept_oneCorner :
    ¬ SkewKept defaultRouter plainPair (gridResult (1 / 2) (3 / 5) (3 / 10) plainPair (1 / 5) oneCorner) := by
  have hamplitude : 0 < defaultRouter.meander_amplitude := one_pos
  have hmismatch : 0 ≤ defaultRouter.max_length_mismatch := by norm_num [defaultRouter]
  obtain ⟨hpos, hlow, hhigh⟩ := pathLength_negVertices_oneCorner
  have hright : mathDist sqrt (0, 0) (10, 0) = 10 := by norm_num [mathDist_axis]
  have hup : mathDist sqrt (10, 0) (10, 10) = 10 := by norm_num [mathDist_upright]
  have hlongest : longest [((0, 0) : Point ℝ), (10, 0), (10, 10)] = 10 := by
    simp [longest, pieces, hright, hup]
  have htotal : totalLength (gridTraces (1 / 2) plainPair (1 / 5) oneCorner : List (Routing.TraceSegment ℝ)) = 20 := by
    show totalLength (gridTraces _ _ _ (corner 1)) = 20
    rw [gridTraces_corner]
    simp only [totalLength, plainTrace, map_cons, map_nil, sum_cons, sum_nil, hright, hup]
    norm_num
  have htooth : toothGain 1 10 = (1 + sqrt 5) * 1 := toothGain_eq (by norm_num) (by norm_num)
  have hroot : (2 : ℝ) ≤ sqrt 5 := le_sqrt_of_sq_le (by norm_num)
  intro hkept
  have hmatch := (skewKept_iff_lengthsMatch hamplitude hmismatch fun t ht => by
    rw [traces_gridResult] at ht
    exact traceOnGrid_gridTraces ht).mp hkept
  rw [traces_gridResult] at hmatch
  unfold LengthsMatch at hmatch
  dsimp only at hmatch
  have hvertices : tracesToVertices sqrt (gridTraces (1 / 2) plainPair (1 / 5) oneCorner) = _ :=
    tracesToVertices_corner 1
  rw [hvertices, htotal, hpos, hlongest] at hmatch
  generalize pathLength sqrt (negVertices sqrt defaultRouter [((0, 0) : Point ℝ), (10, 0), (10, 10)]) =
    neg_len at hlow hhigh hmatch
  dsimp only [defaultRouter] at hmatch
  rcases hmatch with hclose | ⟨-, hroom | hfits⟩ | ⟨hshort, -⟩
  · rw [abs_of_neg (by linarith)] at hclose
    linarith
  · norm_num at hroom
  · rw [htooth] at hfits
    linarith
  · linarith

end ZapTrace.DiffPair
