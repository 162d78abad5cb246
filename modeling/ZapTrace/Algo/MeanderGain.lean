import ZapTrace.Algo.DiffPairPaths

/-!
# What meanders add to a path

Teeth are counted with four amplitudes of length for each, but a tooth as wide as two amplitudes adds `(1 + √5)` of
them. A segment with teeth is the image of one on the axis under an isometry, so what teeth add depends on the
amplitude, the length that is needed and the length of the segment.

## Main results

* `meanderGain_nonneg`, `meanderGain_le_iff`: bounds on what teeth add
* `toothGain_eq`: one tooth
* `pathLength_addMeanders`: the length of a path with teeth
-/

namespace ZapTrace.DiffPair

open List hiding getElem?_eq_some_iff
open Polyline Real

open Plane (Point)
open scoped Plane
open Polyline (pieces)

/-! ## A segment as an axis -/

/-- The point at a distance along a direction and at one to the left of it. -/
def frame (p0 u q : Point ℝ) : Point ℝ := (p0.1 + u.1 * q.1 - u.2 * q.2, p0.2 + u.2 * q.1 + u.1 * q.2)

theorem mathDist_frame {u : Point ℝ} (hu : u.1 ^ 2 + u.2 ^ 2 = 1) (p0 q r : Point ℝ) :
    mathDist sqrt (frame p0 u q) (frame p0 u r) = mathDist sqrt q r := by
  unfold mathDist frame
  congr 1
  linear_combination ((q.1 - r.1) ^ 2 + (q.2 - r.2) ^ 2) * hu

noncomputable def toothPoints (amplitude spacing : ℝ) (tooth : ℕ) : List (Point ℝ) :=
  [(tooth * spacing + spacing / 4, 0), (tooth * spacing + spacing / 2, amplitude),
    (tooth * spacing + spacing / 2, -amplitude), ((tooth + 1) * spacing - spacing / 4, 0)]

theorem meanderTooth_eq (p0 u : Point ℝ) (amplitude spacing : ℝ) (tooth : ℕ) :
    meanderTooth p0 u amplitude spacing tooth = (toothPoints amplitude spacing tooth).map (frame p0 u) := by
  simp only [meanderTooth, toothPoints, frame, map_cons, map_nil, cons.injEq, Prod.mk.injEq, and_true]
  refine ⟨⟨?_, ?_⟩, ⟨?_, ?_⟩, ⟨?_, ?_⟩, ?_, ?_⟩ <;> ring

noncomputable def axisTeeth (amplitude needed best_len : ℝ) : List (Point ℝ) :=
  (range (meanderSize needed amplitude best_len).1.toNat).flatMap
    (toothPoints amplitude ((meanderSize needed amplitude best_len).2 / (meanderSize needed amplitude best_len).1))

/-- What points between the ends of a segment on the axis add to its length, when the path is cleaned. -/
noncomputable def gainOf (points : List (Point ℝ)) (best_len : ℝ) : ℝ :=
  len (mathDist sqrt)
    ((0, 0) :: (thinFrom (mathDist sqrt) (1 / 10000) (0, 0) points ++ [(best_len, 0)])) - best_len

/-- What the teeth of a meander add. -/
noncomputable def meanderGain (amplitude needed best_len : ℝ) : ℝ :=
  gainOf (axisTeeth amplitude needed best_len) best_len

/-- What one tooth adds that is two amplitudes wide. -/
noncomputable def toothGain (amplitude best_len : ℝ) : ℝ :=
  gainOf (toothPoints amplitude (amplitude * 2) 0) best_len

/-! ## Bounds -/

theorem mathDist_le (p q : Point ℝ) : mathDist sqrt p q ≤ |p.1 - q.1| + |p.2 - q.2| := by
  apply sqrt_le_iff.mpr
  refine ⟨by positivity, ?_⟩
  rw [add_sq, sq_abs, sq_abs]
  nlinarith [mul_nonneg (abs_nonneg (p.1 - q.1)) (abs_nonneg (p.2 - q.2))]

theorem mathDist_axis (x y : ℝ) : mathDist sqrt (x, 0) (y, 0) = |x - y| := by
  unfold mathDist
  rw [sub_self, zero_pow two_ne_zero, add_zero, sqrt_sq_eq_abs]

theorem abs_fst_sub_le (p q : Point ℝ) : |p.1 - q.1| ≤ mathDist sqrt p q :=
  abs_le_sqrt (le_add_of_nonneg_right (sq_nonneg _))

theorem gainOf_nonneg (points : List (Point ℝ)) {best_len : ℝ} : 0 ≤ gainOf points best_len := by
  have hends := le_len mathDist_triangle ((0, 0) : Point ℝ)
    (thinFrom (mathDist sqrt) (1 / 10000) (0, 0) points) (best_len, 0)
  rw [mathDist_axis, zero_sub, abs_neg] at hends
  have hle := le_abs_self best_len
  unfold gainOf
  linarith

theorem len_teeth_le {amplitude spacing : ℝ} (hamplitude : 0 < amplitude) (hspacing : 0 < spacing) (n : ℕ) {x : ℝ}
    (hx : n * spacing ≤ x) :
    len (mathDist sqrt)
      ((0, 0) :: ((range n).flatMap (toothPoints amplitude spacing) ++ [(x, 0)])) ≤ x + 4 * amplitude * n := by
  induction n generalizing x with
  | zero =>
    have hx : 0 ≤ x := by simpa using hx
    rw [range_zero, flatMap_nil, nil_append, len_cons_cons, len_singleton,
      mathDist_axis, zero_sub, abs_neg, abs_of_nonneg hx]
    simp
  | succ n ih =>
    push_cast at hx ⊢
    have hbefore := ih (x := n * spacing + spacing / 4) (by linarith)
    have hout := mathDist_le (n * spacing + spacing / 4, 0) (n * spacing + spacing / 2, amplitude)
    have hacross := mathDist_le (n * spacing + spacing / 2, amplitude) (n * spacing + spacing / 2, -amplitude)
    have hback := mathDist_le (n * spacing + spacing / 2, -amplitude) ((n + 1) * spacing - spacing / 4, 0)
    have hrest := mathDist_axis ((n + 1) * spacing - spacing / 4) x
    dsimp only at hout hacross hback
    rw [abs_of_nonpos (by linarith), abs_of_nonpos (by linarith)] at hout
    rw [abs_of_nonpos (by linarith), abs_of_nonneg (by linarith)] at hacross
    rw [abs_of_nonpos (by linarith), abs_of_nonpos (by linarith)] at hback
    rw [abs_of_nonpos (by linarith)] at hrest
    rw [range_succ, flatMap_append, flatMap_cons, flatMap_nil, append_nil, toothPoints,
      append_assoc, cons_append, ← cons_append, len_split, cons_append]
    simp only [cons_append, nil_append, len_cons_cons, len_singleton]
    linarith

variable {amplitude best_len : ℝ}

theorem meanderSize_spec (needed : ℝ) (hamplitude : 0 < amplitude) (hroom : 3 * amplitude ≤ best_len) :
    1 ≤ (meanderSize needed amplitude best_len).1 ∧
      (meanderSize needed amplitude best_len).1 ≤ max 1 ⌈needed / (4 * amplitude)⌉ ∧
      0 < (meanderSize needed amplitude best_len).2 ∧
      (meanderSize needed amplitude best_len).2 ≤ best_len * (4 / 5) := by
  have htwo : 0 < amplitude * 2 := by linarith
  have hone : (1 : ℤ) ≤ max 1 ⌈needed / (4 * amplitude)⌉ := le_max_left _ _
  have hcount : (1 : ℝ) ≤ ((max 1 ⌈needed / (4 * amplitude)⌉ : ℤ) : ℝ) := by exact_mod_cast hone
  unfold meanderSize
  dsimp only
  refine ⟨le_max_left _ _, ?_, ?_, min_le_left _ _⟩
  · refine max_le hone ?_
    have hle : min (best_len * (4 / 5)) (((max 1 ⌈needed / (4 * amplitude)⌉ : ℤ) : ℝ) * (amplitude * 2)) /
        (amplitude * 2) ≤ ((max 1 ⌈needed / (4 * amplitude)⌉ : ℤ) : ℝ) := by
      rw [div_le_iff₀ htwo]
      exact min_le_right _ _
    exact (Int.floor_le_floor hle).trans_eq (Int.floor_intCast _)
  · apply lt_min
    · linarith
    · positivity

theorem meanderSize_of_le {needed amplitude best_len : ℝ} (hamplitude : 0 < amplitude)
    (hroom : 3 * amplitude ≤ best_len) (hle : needed ≤ 4 * amplitude) :
    meanderSize needed amplitude best_len = (1, amplitude * 2) := by
  have hceil : ⌈needed / (4 * amplitude)⌉ ≤ 1 := by
    rw [Int.ceil_le, Int.cast_one, div_le_one (by linarith)]
    exact hle
  have hwidth : min (best_len * (4 / 5)) (((1 : ℤ) : ℝ) * (amplitude * 2)) = amplitude * 2 := by
    rw [Int.cast_one, one_mul]
    apply min_eq_right
    linarith
  have hone : amplitude * 2 / (amplitude * 2) = 1 := div_self (by positivity)
  unfold meanderSize
  dsimp only
  rw [max_eq_left hceil, hwidth, hone, Int.floor_one, max_self]

theorem len_ends_le (points : List (Point ℝ)) (best_len : ℝ) :
    gainOf points best_len ≤
      len (mathDist sqrt) ((0, 0) :: (points ++ [(best_len, 0)])) - best_len := by
  unfold gainOf
  apply sub_le_sub_right
  exact len_thinFrom_concat_le mathDist_nonneg mathDist_triangle _ _ _

theorem meanderGain_le (needed : ℝ) (hamplitude : 0 < amplitude) (hroom : 3 * amplitude ≤ best_len) :
    meanderGain amplitude needed best_len ≤ 4 * amplitude * (max 1 ⌈needed / (4 * amplitude)⌉ : ℤ) := by
  obtain ⟨hone, hcount, hlen, hfit⟩ := meanderSize_spec needed hamplitude hroom
  unfold meanderGain axisTeeth
  generalize meanderSize needed amplitude best_len = size at hone hcount hlen hfit ⊢
  obtain ⟨n, meander_len⟩ := size
  dsimp only at hone hcount hlen hfit ⊢
  have hpos : (0 : ℝ) < n := by exact_mod_cast (show 0 < n by omega)
  have hnat : ((n.toNat : ℕ) : ℝ) = n := by exact_mod_cast Int.toNat_of_nonneg (by omega : 0 ≤ n)
  have hteeth := len_teeth_le hamplitude (div_pos hlen hpos) n.toNat (x := best_len) (by
    rw [hnat, mul_div_cancel₀ _ hpos.ne']
    linarith)
  rw [hnat] at hteeth
  have hcount : 4 * amplitude * n ≤ 4 * amplitude * (max 1 ⌈needed / (4 * amplitude)⌉ : ℤ) := by
    gcongr
  have hends := len_ends_le ((range n.toNat).flatMap (toothPoints amplitude (meander_len / n))) best_len
  linarith

theorem meanderGain_of_le {amplitude needed best_len : ℝ} (hamplitude : 0 < amplitude)
    (hroom : 3 * amplitude ≤ best_len) (hle : needed ≤ 4 * amplitude) :
    meanderGain amplitude needed best_len = toothGain amplitude best_len := by
  unfold meanderGain axisTeeth toothGain
  rw [meanderSize_of_le hamplitude hroom hle]
  simp

theorem toothGain_le (hamplitude : 0 < amplitude) (hroom : 3 * amplitude ≤ best_len) :
    toothGain amplitude best_len ≤ 4 * amplitude := by
  have hle := meanderGain_le 0 hamplitude hroom
  rw [meanderGain_of_le hamplitude hroom (by linarith)] at hle
  simpa using hle

/-- Whether teeth add more than twice what is needed, or more than that and what else there is, is decided by one
tooth: with more teeth they never do. -/
theorem meanderGain_le_iff {amplitude needed best_len : ℝ} (hamplitude : 0 < amplitude)
    (hroom : 3 * amplitude ≤ best_len) (hneeded : 0 < needed) {more : ℝ} (hmore : 0 ≤ more) :
    meanderGain amplitude needed best_len ≤ 2 * needed + more ↔ toothGain amplitude best_len ≤ 2 * needed + more := by
  rcases le_or_gt needed (4 * amplitude) with hle | hlt
  · rw [meanderGain_of_le hamplitude hroom hle]
  · have htooth := toothGain_le hamplitude hroom
    refine iff_of_true ?_ (by linarith)
    have hquotient : 1 < needed / (4 * amplitude) := (one_lt_div (by linarith)).mpr hlt
    have hceil : max 1 ⌈needed / (4 * amplitude)⌉ = ⌈needed / (4 * amplitude)⌉ :=
      max_eq_right (Int.one_le_ceil_iff.mpr (by linarith))
    have hbound := Int.ceil_lt_add_one (needed / (4 * amplitude))
    have hgain := meanderGain_le needed hamplitude hroom
    rw [hceil] at hgain
    have hteeth : 4 * amplitude * (⌈needed / (4 * amplitude)⌉ : ℤ) ≤
        4 * amplitude * (needed / (4 * amplitude) + 1) := by
      gcongr
    rw [mul_add, mul_div_cancel₀ _ (by linarith)] at hteeth
    linarith

/-- **One tooth** adds `(1 + √5)` amplitudes. -/
theorem toothGain_eq (hamplitude : 1 / 5000 < amplitude) (hroom : 3 * amplitude ≤ best_len) :
    toothGain amplitude best_len = (1 + sqrt 5) * amplitude := by
  have hpos : 0 < amplitude := by linarith
  have hfive : (2 : ℝ) ≤ sqrt 5 := le_sqrt_of_sq_le (by norm_num)
  have hstart : mathDist sqrt (0, 0) (amplitude / 2, 0) = amplitude / 2 := by
    rw [mathDist_axis, zero_sub, abs_neg, abs_of_pos (by linarith)]
  have hside : ∀ x y h : ℝ, |x - y| = amplitude / 2 → |h| = amplitude →
      mathDist sqrt (x, 0) (y, h) = sqrt 5 / 2 * amplitude := by
    intro x y h hx hh
    have hsq : (x - y) ^ 2 + (0 - h) ^ 2 = 5 * (amplitude / 2) ^ 2 := by
      rw [← sq_abs (x - y), ← sq_abs (0 - h), zero_sub, abs_neg, hx, hh]
      ring
    unfold mathDist
    rw [hsq, sqrt_mul (by norm_num), sqrt_sq (by linarith)]
    ring
  have hout : mathDist sqrt (amplitude / 2, 0) (amplitude, amplitude) = sqrt 5 / 2 * amplitude :=
    hside _ _ _ (by rw [abs_of_nonpos (by linarith)]; ring) (abs_of_pos hpos)
  have hback : mathDist sqrt (amplitude, -amplitude) (amplitude * 3 / 2, 0) = sqrt 5 / 2 * amplitude := by
    rw [mathDist_comm]
    exact hside _ _ _ (by rw [abs_of_nonneg (by linarith)]; ring) (by rw [abs_neg, abs_of_pos hpos])
  have hacross : mathDist sqrt (amplitude, amplitude) (amplitude, -amplitude) = 2 * amplitude := by
    unfold mathDist
    rw [sub_self, zero_pow two_ne_zero, zero_add, sub_neg_eq_add, sqrt_sq (by linarith)]
    ring
  have hend : mathDist sqrt (amplitude * 3 / 2, 0) (best_len, 0) = best_len - amplitude * 3 / 2 := by
    rw [mathDist_axis, abs_of_nonpos (by linarith)]
    ring
  have hpoints : toothPoints amplitude (amplitude * 2) 0 =
      [(amplitude / 2, 0), (amplitude, amplitude), (amplitude, -amplitude), (amplitude * 3 / 2, 0)] := by
    simp only [toothPoints, Nat.cast_zero, zero_mul, zero_add, one_mul]
    ring_nf
  have hlong : 1 / 10000 < sqrt 5 / 2 * amplitude := by nlinarith
  -- all points are far enough from each other to stay
  unfold toothGain gainOf
  rw [hpoints]
  simp only [thinFrom, hstart, hout, hback, hacross]
  rw [if_pos (by linarith), if_pos hlong, if_pos (by linarith), if_pos hlong]
  simp only [cons_append, nil_append, len_cons_cons, len_singleton, hstart, hout, hback,
    hacross, hend]
  ring

/-! ## Paths with teeth -/

/-- The length of the longest piece of a path. -/
noncomputable def longest (vertices : List (Point ℝ)) : ℝ :=
  ((pieces vertices).map fun s => mathDist sqrt s.1 s.2).foldr max 0
variable {vertices : List (Point ℝ)}

theorem le_longest {s : Point ℝ × Point ℝ} (hs : s ∈ pieces vertices) :
    mathDist sqrt s.1 s.2 ≤ longest vertices := by
  unfold longest
  generalize pieces vertices = segments at hs ⊢
  induction segments with
  | nil => cases hs
  | cons s' segments ih =>
    rw [map_cons, foldr_cons]
    rcases mem_cons.mp hs with rfl | hs
    · exact le_max_left _ _
    · exact (ih hs).trans (le_max_right _ _)

theorem longest_le {bound : ℝ} (hbound : 0 ≤ bound) (h : ∀ s ∈ pieces vertices, mathDist sqrt s.1 s.2 ≤ bound) :
    longest vertices ≤ bound := by
  unfold longest
  generalize pieces vertices = segments at h ⊢
  induction segments with
  | nil => exact hbound
  | cons s segments ih =>
    obtain ⟨hs, hsegments⟩ := forall_mem_cons.mp h
    rw [map_cons, foldr_cons]
    exact max_le hs (ih hsegments)

theorem bestSegment_eq_none_iff {min_segment_len : ℝ} (hmin : 0 < min_segment_len) :
    bestSegment sqrt vertices min_segment_len = none ↔ longest vertices < min_segment_len := by
  have hbest := isBest_bestSegment vertices hmin
  cases hsome : bestSegment sqrt vertices min_segment_len with
  | none =>
    rw [hsome] at hbest
    refine iff_of_true rfl ?_
    have hbest : ∀ s ∈ pieces vertices, mathDist sqrt s.1 s.2 < min_segment_len := hbest
    unfold longest
    generalize pieces vertices = segments at hbest ⊢
    induction segments with
    | nil => exact hmin
    | cons s segments ih =>
      obtain ⟨hs, hsegments⟩ := forall_mem_cons.mp hbest
      rw [map_cons, foldr_cons]
      exact max_lt hs (ih hsegments)
  | some best =>
    rw [hsome] at hbest
    obtain ⟨⟨s, hget, hlen⟩, hle, -⟩ := hbest
    refine iff_of_false (by simp) (not_lt.mpr (hle.trans ?_))
    rw [← hlen]
    exact le_longest (mem_of_getElem? hget)

theorem best_len_eq_longest {min_segment_len : ℝ} (hmin : 0 < min_segment_len) {i : ℕ} {best_len : ℝ}
    (h : bestSegment sqrt vertices min_segment_len = some (i, best_len)) :
    ∃ p0 p1, (pieces vertices)[i]? = some (p0, p1) ∧ mathDist sqrt p0 p1 = best_len ∧
      best_len = longest vertices ∧ min_segment_len ≤ best_len := by
  have hbest := isBest_bestSegment vertices hmin
  rw [h] at hbest
  obtain ⟨⟨⟨p0, p1⟩, hget, hlen⟩, hle, hall⟩ := hbest
  refine ⟨p0, p1, hget, hlen, le_antisymm ?_ (longest_le (hmin.le.trans hle) hall), hle⟩
  rw [← hlen]
  exact le_longest (mem_of_getElem? hget)

theorem far_of_mem_axisTeeth {amplitude needed best_len : ℝ} (hamplitude : 0 < amplitude)
    (hroom : 3 * amplitude ≤ best_len) (hlong : 1 / 2000 < best_len) {q : Point ℝ}
    (hq : q ∈ (0, 0) :: axisTeeth amplitude needed best_len) :
    1 / 10000 < mathDist sqrt q (best_len, 0) := by
  obtain ⟨hone, -, hlen, hfit⟩ := meanderSize_spec needed hamplitude hroom
  have hbefore : q.1 ≤ best_len * (4 / 5) := by
    rcases mem_cons.mp hq with rfl | hq
    · show (0 : ℝ) ≤ _
      linarith
    · unfold axisTeeth at hq
      generalize meanderSize needed amplitude best_len = size at hone hlen hfit hq
      obtain ⟨n, meander_len⟩ := size
      dsimp only at hone hlen hfit hq
      obtain ⟨tooth, htooth, hq⟩ := mem_flatMap.mp hq
      have hpos : (0 : ℝ) < n := by exact_mod_cast (show 0 < n by omega)
      have hspacing := div_pos hlen hpos
      have hlast : ((tooth : ℝ) + 1) * (meander_len / n) ≤ meander_len := by
        have hle : ((tooth : ℝ) + 1) ≤ n := by
          have htooth := mem_range.mp htooth
          exact_mod_cast (show (tooth : ℤ) + 1 ≤ n by omega)
        calc ((tooth : ℝ) + 1) * (meander_len / n) ≤ n * (meander_len / n) := by gcongr
          _ = meander_len := mul_div_cancel₀ _ hpos.ne'
      simp only [toothPoints, mem_cons, not_mem_nil, or_false] at hq
      rcases hq with rfl | rfl | rfl | rfl <;> dsimp only <;> linarith
  have hdist := abs_fst_sub_le q (best_len, 0)
  have habs := neg_abs_le (q.1 - best_len)
  dsimp only at hdist
  linarith

/-- **The length of a path with teeth.** -/
theorem pathLength_addMeanders {target_length amplitude : ℝ} (hamplitude : 0 < amplitude)
    (htidy : Polyline.Tidy (mathDist sqrt) (1 / 10000) vertices) (hlong : 1 / 2000 < longest vertices)
    (hneeded : 0 < target_length - pathLength sqrt vertices) (hroom : amplitude * 3 ≤ longest vertices) :
    pathLength sqrt (addMeanders sqrt vertices target_length amplitude (amplitude * 3)) =
      pathLength sqrt vertices +
        meanderGain amplitude (target_length - pathLength sqrt vertices) (longest vertices) := by
  have hmin : 0 < amplitude * 3 := by linarith
  obtain ⟨⟨i, best_len⟩, hbest⟩ := Option.ne_none_iff_exists'.mp
    (mt (bestSegment_eq_none_iff hmin).mp (not_lt.mpr hroom))
  obtain ⟨p0, p1, hget, hlen, rfl, -⟩ := best_len_eq_longest hmin hbest
  have hsplit := eq_of_getElem?_pieces hget
  obtain ⟨hget0, hget1⟩ := getElem?_pieces.mp hget
  have hp0 : vertexAt vertices i = p0 := by rw [vertexAt, getD_eq_getElem?_getD, hget0, Option.getD_some]
  have hp1 : vertexAt vertices (i + 1) = p1 := by
    rw [vertexAt, getD_eq_getElem?_getD, hget1, Option.getD_some]
  have hdrop : vertices.drop (i + 1) = p1 :: vertices.drop (i + 2) := by
    obtain ⟨hi, rfl⟩ := List.getElem?_eq_some_iff.mp hget1
    exact drop_eq_getElem_cons hi
  generalize vertices.drop (i + 2) = post at hsplit hdrop
  generalize htake : vertices.take i = before at hsplit
  generalize hL : longest vertices = best_len at hlong hroom hlen hbest ⊢
  have hpos : 0 < best_len := hmin.trans_le hroom
  -- the segment is the axis of a frame
  have hdist : sqrt ((p1.1 - p0.1) * (p1.1 - p0.1) + (p1.2 - p0.2) * (p1.2 - p0.2)) = best_len := by
    rw [← hlen, mathDist_comm]
    simp only [mathDist, sq]
  have hsq : (p1.1 - p0.1) ^ 2 + (p1.2 - p0.2) ^ 2 = best_len ^ 2 := by
    rw [← hdist, sq_sqrt (add_nonneg (mul_self_nonneg _) (mul_self_nonneg _))]
    ring
  obtain ⟨u, hu⟩ : ∃ u : Point ℝ, u = ((p1.1 - p0.1) / best_len, (p1.2 - p0.2) / best_len) := ⟨_, rfl⟩
  have hunit : u.1 ^ 2 + u.2 ^ 2 = 1 := by
    rw [hu, div_pow, div_pow, ← add_div, hsq, div_self (pow_ne_zero 2 hpos.ne')]
  have hframe := mathDist_frame hunit p0
  have hstart : frame p0 u (0, 0) = p0 := by
    simp [frame]
  have hend : frame p0 u (best_len, 0) = p1 := by
    have hfst := div_mul_cancel₀ (p1.1 - p0.1) hpos.ne'
    have hsnd := div_mul_cancel₀ (p1.2 - p0.2) hpos.ne'
    simp [frame, hu, hfst, hsnd]
  generalize hneed : target_length - pathLength sqrt vertices = needed at hneeded ⊢
  have hresult : addMeanders sqrt vertices target_length amplitude (amplitude * 3) =
      dedupeVertices sqrt
        (before ++ p0 :: ((axisTeeth amplitude needed best_len).map (frame p0 u) ++ p1 :: p1 :: post)) := by
    unfold addMeanders
    dsimp only
    rw [hneed, if_neg (not_le.mpr hneeded), hbest]
    dsimp only
    have htooth : ∀ spacing, meanderTooth p0 u amplitude spacing =
        fun tooth => (toothPoints amplitude spacing tooth).map (frame p0 u) := fun spacing =>
      funext (meanderTooth_eq p0 u amplitude spacing)
    rw [hp0, hp1, hdist, if_neg (by norm_num; linarith), ← hu, hdrop, htake, axisTeeth, map_flatMap, htooth]
    simp only [append_assoc, cons_append, nil_append]
  -- the path before the segment, the segment with its teeth, and the path behind it
  have hbefore : Polyline.Tidy (mathDist sqrt) (1 / 10000) (before ++ [p0]) := by
    rw [hsplit, append_cons] at htidy
    exact htidy.left_of_append
  have hpost : Polyline.Tidy (mathDist sqrt) (1 / 10000) (p1 :: post) := by
    rw [hsplit, append_cons] at htidy
    exact htidy.right_of_append
  generalize frame p0 u = onto at hframe hstart hend hresult
  have hfar : ∀ q ∈ p0 :: (axisTeeth amplitude needed best_len).map onto,
      1 / 10000 < mathDist sqrt q p1 := by
    intro q hq
    rw [← hstart, ← map_cons] at hq
    obtain ⟨r, hr, rfl⟩ := mem_map.mp hq
    rw [← hend, hframe]
    exact far_of_mem_axisTeeth hamplitude (by linarith) hlong hr
  have hteeth : len (mathDist sqrt)
      (p0 :: (thinFrom (mathDist sqrt) (1 / 10000) p0
        ((axisTeeth amplitude needed best_len).map onto) ++ [p1])) =
      best_len + meanderGain amplitude needed best_len := by
    have hmap := len_map hframe ((0, 0) :: (thinFrom (mathDist sqrt) (1 / 10000) (0, 0)
      (axisTeeth amplitude needed best_len) ++ [(best_len, 0)]))
    rw [map_cons, map_append, ← thinFrom_map hframe, map_cons, map_nil, hstart,
      hend] at hmap
    rw [hmap, meanderGain, gainOf]
    ring
  have htol : (0 : ℝ) ≤ 1 / 10000 := by norm_num
  have hself : ¬ 1 / 10000 < mathDist sqrt p1 p1 := by
    rw [mathDist_self]
    norm_num
  rw [hresult]
  unfold pathLength dedupeVertices
  rw [len_thin_split mathDist_self htol hbefore, thinFrom_append hfar, ← cons_append,
    len_split (p0 :: thinFrom _ _ _ _) p1, cons_append, hteeth, thinFrom, if_neg hself,
    len_thinFrom_of_tidy mathDist_self htol hpost, hsplit, len_around, hlen]
  ring

end ZapTrace.DiffPair
