import ZapTrace.Algo.MeanderGain

/-!
# The distance of a path from its offset

Each vertex is moved by the distance along the normal of the bisector at it. Where the path turns, a vertex that is
moved to the inside comes too close to the next piece, and one that is moved to the outside is not far enough out: the
offset piece starts on its own side of the corner and passes it at less than the distance. So the offset keeps the
distance from the path exactly where the path does not turn.

## Main results

* `exists_mathDist_lt`: a piece that follows a turn
* `offsetApart_iff_straight`: the offset of a path without reversals
-/

namespace ZapTrace.DiffPair

open Plane Real

open Plane (Point along)
open scoped Plane
open Polyline (pieces)

/-! ## A piece after a turn -/

/-- Two segments keep a distance. -/
def Apart (distance : ℝ) (s t : Point ℝ × Point ℝ) : Prop :=
  ∀ a ∈ Set.Icc (0 : ℝ) 1, ∀ b ∈ Set.Icc (0 : ℝ) 1,
    distance ≤ mathDist sqrt (along s.1 s.2 a) (along t.1 t.2 b)

theorem along_frame (p0 u q r : Point ℝ) (t : ℝ) :
    along (frame p0 u q) (frame p0 u r) t = frame p0 u (along q r t) := by
  unfold along frame
  ext
  · show _ = p0.1 + u.1 * (q.1 + t * (r.1 - q.1)) - u.2 * (q.2 + t * (r.2 - q.2))
    ring
  · show _ = p0.2 + u.2 * (q.1 + t * (r.1 - q.1)) + u.1 * (q.2 + t * (r.2 - q.2))
    ring

theorem exists_mathDist_axis_lt {x y len distance : ℝ} (hdistance : 0 < distance) (hlen : 0 < len) (hx : 0 ≤ x)
    (hy : y ^ 2 < distance ^ 2) (hfar : len < x → (x - len) ^ 2 + y ^ 2 < distance ^ 2) :
    ∃ b ∈ Set.Icc (0 : ℝ) 1, mathDist sqrt (x, y) (along (0, 0) (len, 0) b) < distance := by
  rcases le_or_gt x len with hle | hlt
  · refine ⟨x / len, ⟨by positivity, (div_le_one hlen).mpr hle⟩, ?_⟩
    have hfoot : along ((0, 0) : Point ℝ) (len, 0) (x / len) = (x, 0) := by
      have hcancel := div_mul_cancel₀ x hlen.ne'
      simp [along, hcancel]
    rw [hfoot, mathDist, sqrt_lt' hdistance]
    simpa using hy
  · refine ⟨1, ⟨zero_le_one, le_refl 1⟩, ?_⟩
    have hend : along ((0, 0) : Point ℝ) (len, 0) 1 = (len, 0) := by simp [along]
    rw [hend, mathDist, sqrt_lt' hdistance]
    simpa using hfar hlt

/-- **A piece after a turn.** On the axis, with the start moved off the normal of the piece. -/
theorem exists_mathDist_lt {distance len σ c τ c' : ℝ} (hdistance : 0 < distance) (hlen : 0 < len)
    (hstart : σ ^ 2 + c ^ 2 = 1) (hend : τ ^ 2 + c' ^ 2 = 1) (hturn : σ ≠ 0) :
    ∃ a ∈ Set.Icc (0 : ℝ) 1, ∃ b ∈ Set.Icc (0 : ℝ) 1,
      mathDist sqrt
        (along (distance * σ, -(distance * c)) (len + distance * τ, -(distance * c')) a)
        (along (0, 0) (len, 0) b) < distance := by
  have hsq : 0 < distance ^ 2 := by positivity
  have hc : c ^ 2 < 1 := by nlinarith [sq_pos_of_ne_zero hturn]
  rcases lt_or_gt_of_ne hturn with hout | hin
  · rcases lt_or_ge τ 0 with hback | hforth
    · -- the end of the offset piece is moved to the inside
      refine ⟨1, ⟨zero_le_one, le_refl 1⟩, ?_⟩
      have hpoint : along ((distance * σ, -(distance * c)) : Point ℝ) (len + distance * τ, -(distance * c')) 1 =
          (len + distance * τ, -(distance * c')) := by
        simp [along]
      rw [hpoint]
      have hc' : c' ^ 2 < 1 := by nlinarith [sq_pos_of_ne_zero hback.ne]
      have hheight : (-(distance * c')) ^ 2 < distance ^ 2 := by nlinarith
      rcases le_or_gt 0 (len + distance * τ) with hle | hlt
      · refine exists_mathDist_axis_lt hdistance hlen hle hheight fun hgt => ?_
        have hneg := mul_neg_of_pos_of_neg hdistance hback
        linarith
      · refine ⟨0, ⟨le_refl 0, zero_le_one⟩, ?_⟩
        have hstep : (len + distance * τ) ^ 2 < (distance * τ) ^ 2 := by nlinarith
        have horigin : along ((0, 0) : Point ℝ) (len, 0) 0 = (0, 0) := by simp [along]
        rw [horigin, mathDist, sqrt_lt' hdistance]
        calc (len + distance * τ - 0) ^ 2 + (-(distance * c') - 0) ^ 2
            < (distance * τ) ^ 2 + (-(distance * c') - 0) ^ 2 := by
              rw [sub_zero]
              gcongr
          _ = distance ^ 2 * (τ ^ 2 + c' ^ 2) := by ring
          _ = distance ^ 2 := by rw [hend, mul_one]
    · -- the offset piece passes the corner
      have hback := mul_neg_of_pos_of_neg hdistance hout
      have hahead := mul_nonneg hdistance.le hforth
      have hspan : 0 < len + distance * τ - distance * σ := by linarith
      obtain ⟨part, hpart⟩ : ∃ part, part = -(distance * σ) / (len + distance * τ - distance * σ) := ⟨_, rfl⟩
      have hpos : 0 ≤ part := by
        rw [hpart]
        exact div_nonneg (by linarith) hspan.le
      have hlt : part < 1 := by
        rw [hpart, div_lt_one hspan]
        linarith
      have hzero : distance * σ + part * (len + distance * τ - distance * σ) = 0 := by
        rw [hpart, div_mul_cancel₀ _ hspan.ne']
        ring
      refine ⟨part, ⟨hpos, hlt.le⟩, 0, ⟨le_refl 0, zero_le_one⟩, ?_⟩
      have hpoint : along ((distance * σ, -(distance * c)) : Point ℝ) (len + distance * τ, -(distance * c')) part =
          (0, -(distance * ((1 - part) * c + part * c'))) := by
        unfold along
        rw [hzero, Prod.mk.injEq]
        exact ⟨rfl, by ring⟩
      have horigin : along ((0, 0) : Point ℝ) (len, 0) 0 = (0, 0) := by simp [along]
      have hmean : ((1 - part) * c + part * c') ^ 2 < 1 := by
        have hlow : |c| < 1 := (sq_lt_one_iff_abs_lt_one c).mp hc
        have hhigh : |c'| ≤ 1 := (sq_le_one_iff_abs_le_one c').mp (by nlinarith [sq_nonneg τ])
        rw [sq_lt_one_iff_abs_lt_one]
        calc |(1 - part) * c + part * c'| ≤ |(1 - part) * c| + |part * c'| := abs_add_le _ _
          _ = (1 - part) * |c| + part * |c'| := by
            rw [abs_mul, abs_mul, abs_of_pos (sub_pos.mpr hlt), abs_of_nonneg hpos]
          _ < (1 - part) * 1 + part * 1 := by
            apply add_lt_add_of_lt_of_le
            · exact mul_lt_mul_of_pos_left hlow (sub_pos.mpr hlt)
            · exact mul_le_mul_of_nonneg_left hhigh hpos
          _ = 1 := by ring
      rw [hpoint, horigin, mathDist, sqrt_lt' hdistance]
      dsimp only
      nlinarith
  · -- the start of the offset piece is moved to the inside
    refine ⟨0, ⟨le_refl 0, zero_le_one⟩, ?_⟩
    have hpoint : along ((distance * σ, -(distance * c)) : Point ℝ) (len + distance * τ, -(distance * c')) 0 =
        (distance * σ, -(distance * c)) := by
      simp [along]
    rw [hpoint]
    apply exists_mathDist_axis_lt hdistance hlen (by positivity)
    · nlinarith
    · intro hlt
      have hstep : (distance * σ - len) ^ 2 < (distance * σ) ^ 2 := by nlinarith
      calc (distance * σ - len) ^ 2 + (-(distance * c)) ^ 2 < (distance * σ) ^ 2 + (-(distance * c)) ^ 2 := by
            gcongr
        _ = distance ^ 2 * (σ ^ 2 + c ^ 2) := by ring
        _ = distance ^ 2 := by rw [hstart, mul_one]

/-! ## Directions and bisectors -/

theorem sqrt_vec (p q : Point ℝ) :
    sqrt ((vec p q).1 * (vec p q).1 + (vec p q).2 * (vec p q).2) =
      mathDist sqrt p q := by
  rw [mathDist_comm]
  simp only [mathDist, vec, sq]

theorem unitVector_spec {p q : Point ℝ} (hfar : 1 / 10000 < mathDist sqrt p q) :
    unitVector sqrt (vec p q) =
        ((q.1 - p.1) / mathDist sqrt p q, (q.2 - p.2) / mathDist sqrt p q) ∧
      (unitVector sqrt (vec p q)).1 ^ 2 + (unitVector sqrt (vec p q)).2 ^ 2 = 1 ∧
      frame p (unitVector sqrt (vec p q)) (mathDist sqrt p q, 0) = q := by
  have hpos : 0 < mathDist sqrt p q := lt_trans (by norm_num) hfar
  have hunit : unitVector sqrt (vec p q) =
      ((q.1 - p.1) / mathDist sqrt p q, (q.2 - p.2) / mathDist sqrt p q) := by
    unfold unitVector
    dsimp only
    rw [sqrt_vec, if_neg (by norm_num at hfar ⊢; linarith)]
    rfl
  have hsq : (q.1 - p.1) ^ 2 + (q.2 - p.2) ^ 2 = mathDist sqrt p q ^ 2 := by
    rw [mathDist, sq_sqrt (by positivity)]
    ring
  rw [hunit]
  refine ⟨rfl, ?_, ?_⟩
  · dsimp only
    rw [div_pow, div_pow, ← add_div, hsq, div_self (pow_ne_zero 2 hpos.ne')]
  · have hfst := div_mul_cancel₀ (q.1 - p.1) hpos.ne'
    have hsnd := div_mul_cancel₀ (q.2 - p.2) hpos.ne'
    simp [frame, hfst, hsnd]

noncomputable def direction (vertices : List (Point ℝ)) (i : ℕ) : Point ℝ :=
  unitVector sqrt (vec (vertexAt vertices i) (vertexAt vertices (i + 1)))

/-- The length of what `_vertex_direction` returns. -/
noncomputable def directionLength (vertices : List (Point ℝ)) (i : ℕ) : ℝ :=
  sqrt ((vertexDirection sqrt vertices i).1 * (vertexDirection sqrt vertices i).1 +
    (vertexDirection sqrt vertices i).2 * (vertexDirection sqrt vertices i).2)

/-- Each vertex has a direction: the path does not turn back on itself. -/
def NoReversal (vertices : List (Point ℝ)) : Prop :=
  ∀ i < vertices.length, 1 / 1000000000 ≤ directionLength vertices i

/-- The unit vector along which `_offset_vertex` takes its normal. -/
noncomputable def bisector (vertices : List (Point ℝ)) (i : ℕ) : Point ℝ :=
  ((vertexDirection sqrt vertices i).1 / directionLength vertices i,
    (vertexDirection sqrt vertices i).2 / directionLength vertices i)

section Vertices

variable {vertices : List (Point ℝ)} {distance : ℝ}

theorem bisector_unit {i : ℕ} (h : 1 / 1000000000 ≤ directionLength vertices i) :
    (bisector vertices i).1 ^ 2 + (bisector vertices i).2 ^ 2 = 1 := by
  have hpos : 0 < directionLength vertices i := lt_of_lt_of_le (by norm_num) h
  have hsq : (vertexDirection sqrt vertices i).1 ^ 2 + (vertexDirection sqrt vertices i).2 ^ 2 =
      directionLength vertices i ^ 2 := by
    rw [directionLength, sq_sqrt (add_nonneg (mul_self_nonneg _) (mul_self_nonneg _))]
    ring
  unfold bisector
  rw [div_pow, div_pow, ← add_div, hsq, div_self (pow_ne_zero 2 hpos.ne')]

theorem offsetAt_eq {i : ℕ} (h : 1 / 1000000000 ≤ directionLength vertices i) :
    offsetAt sqrt vertices (-distance) i =
      ((vertexAt vertices i).1 + distance * (bisector vertices i).2,
        (vertexAt vertices i).2 - distance * (bisector vertices i).1) := by
  have hsome : offsetVertex sqrt (vertexAt vertices i) (vertexDirection sqrt vertices i) (-distance) =
      some ((vertexAt vertices i).1 + distance * (bisector vertices i).2,
        (vertexAt vertices i).2 - distance * (bisector vertices i).1) := by
    have hlength := not_lt.mpr h
    unfold directionLength at hlength
    unfold offsetVertex
    dsimp only
    rw [if_neg hlength, Option.some.injEq, Prod.mk.injEq]
    constructor
    · show _ - _ / directionLength vertices i * -distance = _ + distance * (_ / directionLength vertices i)
      ring
    · show _ + _ / directionLength vertices i * -distance = _ - distance * (_ / directionLength vertices i)
      ring
  cases i <;> rw [offsetAt, hsome, Option.getD_some]

theorem frame_normal {u : Point ℝ} (hu : u.1 ^ 2 + u.2 ^ 2 = 1) (p b : Point ℝ) (x : ℝ) :
    ((frame p u (x, 0)).1 + distance * b.2, (frame p u (x, 0)).2 - distance * b.1) =
      frame p u (x + distance * (b.2 * u.1 - b.1 * u.2), -(distance * (b.1 * u.1 + b.2 * u.2))) := by
  unfold frame
  rw [Prod.mk.injEq]
  constructor
  · linear_combination -(distance * b.2) * hu
  · linear_combination (distance * b.1) * hu

theorem bisector_parts {u b : Point ℝ} (hu : u.1 ^ 2 + u.2 ^ 2 = 1) (hb : b.1 ^ 2 + b.2 ^ 2 = 1) :
    (b.2 * u.1 - b.1 * u.2) ^ 2 + (b.1 * u.1 + b.2 * u.2) ^ 2 = 1 := by
  linear_combination (b.1 ^ 2 + b.2 ^ 2) * hu + hb

end Vertices

theorem eq_of_cross_eq_zero {u u' : Point ℝ} (hu' : u'.1 ^ 2 + u'.2 ^ 2 = 1) (hu : u.1 ^ 2 + u.2 ^ 2 = 1)
    (hcross : u'.2 * u.1 - u'.1 * u.2 = 0) (hsum : 0 < (u'.1 + u.1) ^ 2 + (u'.2 + u.2) ^ 2) : u' = u := by
  have hdot : (u'.1 * u.1 + u'.2 * u.2 - 1) * (u'.1 * u.1 + u'.2 * u.2 + 1) = 0 := by
    linear_combination (u.1 ^ 2 + u.2 ^ 2) * hu' + hu - (u'.2 * u.1 - u'.1 * u.2) * hcross
  rcases mul_eq_zero.mp hdot with hone | hone
  · have hsq : (u'.1 - u.1) ^ 2 + (u'.2 - u.2) ^ 2 = 0 := by linear_combination hu' + hu - 2 * hone
    obtain ⟨hfst, hsnd⟩ := (add_eq_zero_iff_of_nonneg (sq_nonneg _) (sq_nonneg _)).mp hsq
    ext
    · exact sub_eq_zero.mp (pow_eq_zero_iff two_ne_zero |>.mp hfst)
    · exact sub_eq_zero.mp (pow_eq_zero_iff two_ne_zero |>.mp hsnd)
  · have hsq : (u'.1 + u.1) ^ 2 + (u'.2 + u.2) ^ 2 = 0 := by linear_combination hu' + hu + 2 * hone
    exact absurd hsq hsum.ne'

/-! ## Paths that do not turn -/

/-- All pieces have one direction. -/
def Straight (vertices : List (Point ℝ)) : Prop :=
  ∃ u : Point ℝ, ∀ s ∈ pieces vertices, s.2 = frame s.1 u (mathDist sqrt s.1 s.2, 0)

/-- The offset to the right keeps the distance from the path. -/
def OffsetApart (distance : ℝ) (vertices : List (Point ℝ)) : Prop :=
  ∀ s ∈ pieces (parallelOffset sqrt vertices (-distance)), ∀ t ∈ pieces vertices, Apart distance s t

section Paths

variable {vertices : List (Point ℝ)} {distance : ℝ}
variable {i : ℕ}

theorem getElem?_vertexAt (h : i < vertices.length) : vertices[i]? = some (vertexAt vertices i) := by
  rw [vertexAt, List.getD_eq_getElem?_getD, List.getElem?_eq_getElem h, Option.getD_some]

theorem mem_pieces_vertexAt (h : i + 1 < vertices.length) :
    (vertexAt vertices i, vertexAt vertices (i + 1)) ∈ pieces vertices :=
  List.mem_of_getElem? (Polyline.getElem?_pieces.mpr
    ⟨getElem?_vertexAt (Nat.lt_of_succ_lt h), getElem?_vertexAt h⟩)

theorem exists_of_mem_pieces {s : Point ℝ × Point ℝ} (hs : s ∈ pieces vertices) :
    ∃ i, i + 1 < vertices.length ∧ s = (vertexAt vertices i, vertexAt vertices (i + 1)) := by
  obtain ⟨i, hi⟩ := List.mem_iff_getElem?.mp hs
  obtain ⟨ha, hb⟩ := Polyline.getElem?_pieces.mp hi
  have hlt := (List.getElem?_eq_some_iff.mp hb).1
  rw [getElem?_vertexAt (Nat.lt_of_succ_lt hlt), Option.some.injEq] at ha
  rw [getElem?_vertexAt hlt, Option.some.injEq] at hb
  exact ⟨i, hlt, Prod.ext ha.symm hb.symm⟩

theorem length_parallelOffset (offset : ℝ) :
    (parallelOffset sqrt vertices offset).length = vertices.length := by
  unfold parallelOffset
  split
  · rfl
  · rw [List.length_map, List.length_range]

theorem vertexAt_parallelOffset (hlen : 1 < vertices.length) (offset : ℝ) (h : i < vertices.length) :
    vertexAt (parallelOffset sqrt vertices offset) i = offsetAt sqrt vertices offset i := by
  unfold vertexAt parallelOffset
  rw [if_neg (not_le.mpr hlen), List.getD_eq_getElem?_getD, List.getElem?_map, List.getElem?_range h]
  rfl

theorem mem_pieces_parallelOffset (offset : ℝ) {s : Point ℝ × Point ℝ} :
    s ∈ pieces (parallelOffset sqrt vertices offset) ↔
      ∃ i, i + 1 < vertices.length ∧
        s = (offsetAt sqrt vertices offset i, offsetAt sqrt vertices offset (i + 1)) := by
  have hat : ∀ {i}, i + 1 < vertices.length →
      vertexAt (parallelOffset sqrt vertices offset) i = offsetAt sqrt vertices offset i ∧
        vertexAt (parallelOffset sqrt vertices offset) (i + 1) =
          offsetAt sqrt vertices offset (i + 1) := fun {i} hi =>
    ⟨vertexAt_parallelOffset (by omega) offset (by omega), vertexAt_parallelOffset (by omega) offset hi⟩
  constructor
  · intro hs
    obtain ⟨i, hi, rfl⟩ := exists_of_mem_pieces hs
    rw [length_parallelOffset] at hi
    exact ⟨i, hi, by rw [(hat hi).1, (hat hi).2]⟩
  · rintro ⟨i, hi, rfl⟩
    rw [← (hat hi).1, ← (hat hi).2]
    apply mem_pieces_vertexAt
    rwa [length_parallelOffset]

variable (hchain : vertices.IsChain fun p q => 1 / 10000 < mathDist sqrt p q)

include hchain

theorem mathDist_vertexAt (h : i + 1 < vertices.length) :
    1 / 10000 < mathDist sqrt (vertexAt vertices i) (vertexAt vertices (i + 1)) :=
  Polyline.rel_of_mem_pieces hchain (mem_pieces_vertexAt h)

theorem vertexAt_succ_eq (h : i + 1 < vertices.length) :
    (direction vertices i).1 ^ 2 + (direction vertices i).2 ^ 2 = 1 ∧
      frame (vertexAt vertices i) (direction vertices i)
        (mathDist sqrt (vertexAt vertices i) (vertexAt vertices (i + 1)), 0) = vertexAt vertices (i + 1) :=
  (unitVector_spec (mathDist_vertexAt hchain h)).2

/-- **A turn.** The offset of the piece after it comes too close to the piece. -/
theorem direction_eq_of_offsetApart (hdistance : 0 < distance) (hreversal : NoReversal vertices)
    (hapart : OffsetApart distance vertices) (h : i + 2 < vertices.length) :
    direction vertices i = direction vertices (i + 1) := by
  obtain ⟨hback, -⟩ := vertexAt_succ_eq hchain (by omega : i + 1 < vertices.length)
  obtain ⟨hu, hnext⟩ := vertexAt_succ_eq hchain h
  have hlen := mathDist_vertexAt hchain h
  by_contra hne
  have hstart := hreversal (i + 1) (by omega)
  have hend := hreversal (i + 2) h
  have hsum : vertexDirection sqrt vertices (i + 1) =
      ((direction vertices i).1 + (direction vertices (i + 1)).1,
        (direction vertices i).2 + (direction vertices (i + 1)).2) := by
    unfold vertexDirection direction
    rw [if_neg (by omega), if_neg (by omega), Nat.add_sub_cancel]
  have hpos : 0 < directionLength vertices (i + 1) := lt_of_lt_of_le (by norm_num) hstart
  have hsq : directionLength vertices (i + 1) ^ 2 =
      ((direction vertices i).1 + (direction vertices (i + 1)).1) ^ 2 +
        ((direction vertices i).2 + (direction vertices (i + 1)).2) ^ 2 := by
    rw [directionLength, sq_sqrt (add_nonneg (mul_self_nonneg _) (mul_self_nonneg _)), hsum]
    ring
  -- the bisector is not along the next piece
  have hturn : (bisector vertices (i + 1)).2 * (direction vertices (i + 1)).1 -
      (bisector vertices (i + 1)).1 * (direction vertices (i + 1)).2 ≠ 0 := by
    intro hzero
    unfold bisector at hzero
    rw [hsum] at hzero
    dsimp only at hzero
    generalize direction vertices i = u', direction vertices (i + 1) = u at *
    generalize directionLength vertices (i + 1) = D at *
    have hcross : u'.2 * u.1 - u'.1 * u.2 = 0 := by
      have hmul : D * ((u'.2 + u.2) / D * u.1 - (u'.1 + u.1) / D * u.2) = u'.2 * u.1 - u'.1 * u.2 := by
        field_simp
        ring
      rw [← hmul, hzero, mul_zero]
    refine hne (eq_of_cross_eq_zero hback hu hcross ?_)
    rw [← hsq]
    positivity
  obtain ⟨b, hb, hpart⟩ : ∃ b : Point ℝ, b = bisector vertices (i + 1) ∧ b.1 ^ 2 + b.2 ^ 2 = 1 :=
    ⟨_, rfl, bisector_unit hstart⟩
  obtain ⟨b', hb', hpart'⟩ : ∃ b' : Point ℝ, b' = bisector vertices (i + 2) ∧ b'.1 ^ 2 + b'.2 ^ 2 = 1 :=
    ⟨_, rfl, bisector_unit hend⟩
  rw [← hb] at hturn
  obtain ⟨x, hx, y, hy, hnear⟩ := exists_mathDist_lt hdistance (lt_trans (by norm_num) hlen)
    (bisector_parts hu hpart) (bisector_parts hu hpart') hturn
  have hpiece := hapart _ ((mem_pieces_parallelOffset _).mpr ⟨i + 1, h, rfl⟩) _ (mem_pieces_vertexAt h) x hx y hy
  have horigin : vertexAt vertices (i + 1) = frame (vertexAt vertices (i + 1)) (direction vertices (i + 1)) (0, 0) := by
    simp [frame]
  have hfirst : offsetAt sqrt vertices (-distance) (i + 1) = frame (vertexAt vertices (i + 1))
      (direction vertices (i + 1)) (distance * (b.2 * (direction vertices (i + 1)).1 -
        b.1 * (direction vertices (i + 1)).2),
        -(distance * (b.1 * (direction vertices (i + 1)).1 + b.2 * (direction vertices (i + 1)).2))) := by
    rw [offsetAt_eq hstart, ← hb]
    nth_rewrite 1 2 [horigin]
    rw [frame_normal hu, zero_add]
  have hsecond : offsetAt sqrt vertices (-distance) (i + 1 + 1) = frame (vertexAt vertices (i + 1))
      (direction vertices (i + 1))
      (mathDist sqrt (vertexAt vertices (i + 1)) (vertexAt vertices (i + 1 + 1)) +
        distance * (b'.2 * (direction vertices (i + 1)).1 - b'.1 * (direction vertices (i + 1)).2),
        -(distance * (b'.1 * (direction vertices (i + 1)).1 + b'.2 * (direction vertices (i + 1)).2))) := by
    rw [offsetAt_eq hend, ← hb', ← frame_normal hu, hnext]
  have haxis : along (vertexAt vertices (i + 1)) (vertexAt vertices (i + 1 + 1)) y =
      frame (vertexAt vertices (i + 1)) (direction vertices (i + 1))
        (along (0, 0) (mathDist sqrt (vertexAt vertices (i + 1)) (vertexAt vertices (i + 1 + 1)), 0) y) := by
    rw [← along_frame, ← horigin, hnext]
  dsimp only at hpiece
  rw [hfirst, hsecond, along_frame, haxis, mathDist_frame hu] at hpiece
  exact absurd hpiece (not_le.mpr hnear)

theorem straight_of_offsetApart (hdistance : 0 < distance) (hreversal : NoReversal vertices)
    (hapart : OffsetApart distance vertices) : Straight vertices := by
  have hall : ∀ i, i + 1 < vertices.length → direction vertices i = direction vertices 0 := by
    intro i
    induction i with
    | zero => exact fun _ => rfl
    | succ i ih =>
      intro h
      rw [← direction_eq_of_offsetApart hchain hdistance hreversal hapart h]
      exact ih (by omega)
  refine ⟨direction vertices 0, fun s hs => ?_⟩
  obtain ⟨i, hi, rfl⟩ := exists_of_mem_pieces hs
  rw [← hall i hi]
  exact (vertexAt_succ_eq hchain hi).2.symm

/-! ### Straight paths -/

omit hchain in
theorem frame_frame (p0 u q : Point ℝ) (x : ℝ) : frame (frame p0 u q) u (x, 0) = frame p0 u (q.1 + x, q.2) := by
  unfold frame
  ext
  · show _ = p0.1 + u.1 * (q.1 + x) - u.2 * q.2
    ring
  · show _ = p0.2 + u.2 * (q.1 + x) + u.1 * q.2
    ring

variable {u : Point ℝ} (hu : ∀ s ∈ pieces vertices, s.2 = frame s.1 u (mathDist sqrt s.1 s.2, 0))

include hu

theorem unit_of_straight (hlen : 1 < vertices.length) : u.1 ^ 2 + u.2 ^ 2 = 1 := by
  have hfar := mathDist_vertexAt hchain hlen
  have hpiece := hu _ (mem_pieces_vertexAt hlen)
  dsimp only at hpiece
  generalize vertexAt vertices 0 = p at hfar hpiece
  generalize vertexAt vertices (0 + 1) = q at hfar hpiece
  have hsq : mathDist sqrt p q ^ 2 = (p.1 - q.1) ^ 2 + (p.2 - q.2) ^ 2 := by
    rw [mathDist, sq_sqrt (by positivity)]
  generalize mathDist sqrt p q = len at hfar hpiece hsq
  have hpos : 0 < len := lt_trans (by norm_num) hfar
  rw [hpiece] at hsq
  have hmul : len ^ 2 * (u.1 ^ 2 + u.2 ^ 2) = len ^ 2 * 1 := by
    simp only [frame] at hsq
    linear_combination -hsq
  exact mul_left_cancel₀ (pow_ne_zero 2 hpos.ne') hmul

omit hchain in
theorem exists_vertexAt_eq_frame (h : i < vertices.length) :
    ∃ x, vertexAt vertices i = frame (vertexAt vertices 0) u (x, 0) := by
  induction i with
  | zero => exact ⟨0, by simp [frame]⟩
  | succ i ih =>
    obtain ⟨x, hx⟩ := ih (by omega)
    have hpiece := hu _ (mem_pieces_vertexAt h)
    dsimp only at hpiece
    rw [hpiece]
    exact ⟨x + mathDist sqrt (vertexAt vertices i) (vertexAt vertices (i + 1)), by rw [hx, frame_frame]⟩

theorem exists_vertexDirection_eq (hlen : 1 < vertices.length) (h : i < vertices.length) :
    ∃ c, 1 / 10000 < c ∧ vertexDirection sqrt vertices i = (c * u.1, c * u.2) := by
  have hvec : ∀ {k}, k + 1 < vertices.length → vec (vertexAt vertices k) (vertexAt vertices (k + 1)) =
      (mathDist sqrt (vertexAt vertices k) (vertexAt vertices (k + 1)) * u.1,
        mathDist sqrt (vertexAt vertices k) (vertexAt vertices (k + 1)) * u.2) := by
    intro k hk
    have hpiece := hu _ (mem_pieces_vertexAt hk)
    dsimp only at hpiece
    generalize mathDist sqrt (vertexAt vertices k) (vertexAt vertices (k + 1)) = len at hpiece ⊢
    rw [hpiece]
    simp only [vec, frame, Prod.mk.injEq]
    constructor <;> ring
  have hdirection : ∀ {k}, k + 1 < vertices.length →
      unitVector sqrt (vec (vertexAt vertices k) (vertexAt vertices (k + 1))) = u := by
    intro k hk
    have hfar := mathDist_vertexAt hchain hk
    have hpos : mathDist sqrt (vertexAt vertices k) (vertexAt vertices (k + 1)) ≠ 0 :=
      (lt_trans (by norm_num) hfar).ne'
    have hpiece := hu _ (mem_pieces_vertexAt hk)
    rw [(unitVector_spec hfar).1]
    dsimp only at hpiece
    generalize mathDist sqrt (vertexAt vertices k) (vertexAt vertices (k + 1)) = len at hpiece hpos ⊢
    rw [hpiece]
    simp only [frame]
    ext
    · show (_ - _) / len = u.1
      rw [div_eq_iff hpos]
      ring
    · show (_ - _) / len = u.2
      rw [div_eq_iff hpos]
      ring
  unfold vertexDirection
  split
  · exact ⟨_, mathDist_vertexAt hchain hlen, hvec hlen⟩
  · split
    · obtain ⟨k, rfl⟩ : ∃ k, i = k + 1 := ⟨i - 1, by omega⟩
      exact ⟨_, mathDist_vertexAt hchain h, hvec h⟩
    · obtain ⟨k, rfl⟩ : ∃ k, i = k + 1 := ⟨i - 1, by omega⟩
      rw [Nat.add_sub_cancel, hdirection (by omega), hdirection (by omega)]
      exact ⟨2, by norm_num, by ext <;> ring⟩

theorem exists_offsetAt_eq_frame (distance : ℝ) (hlen : 1 < vertices.length) (h : i < vertices.length) :
    ∃ x, offsetAt sqrt vertices (-distance) i = frame (vertexAt vertices 0) u (x, -distance) := by
  obtain ⟨c, hc, hdirection⟩ := exists_vertexDirection_eq hchain hu hlen h
  have hunit := unit_of_straight hchain hu hlen
  have hpos : 0 < c := lt_trans (by norm_num) hc
  have hlength : directionLength vertices i = c := by
    have hsq : c * u.1 * (c * u.1) + c * u.2 * (c * u.2) = c ^ 2 := by linear_combination c ^ 2 * hunit
    rw [directionLength, hdirection]
    dsimp only
    rw [hsq, sqrt_sq hpos.le]
  have hbisector : bisector vertices i = u := by
    unfold bisector
    rw [hlength, hdirection, mul_div_cancel_left₀ _ hpos.ne', mul_div_cancel_left₀ _ hpos.ne']
  obtain ⟨x, hx⟩ := exists_vertexAt_eq_frame hu h
  refine ⟨x, ?_⟩
  rw [offsetAt_eq (by rw [hlength]; norm_num at hc ⊢; linarith), hbisector, hx, frame_normal hunit]
  have hside : u.2 * u.1 - u.1 * u.2 = 0 := by ring
  have hheight : u.1 * u.1 + u.2 * u.2 = 1 := by linear_combination hunit
  rw [hside, hheight, mul_zero, add_zero, mul_one]

end Paths

theorem Straight.offsetApart {vertices : List (Point ℝ)}
    (hchain : vertices.IsChain fun p q => 1 / 10000 < mathDist sqrt p q) (h : Straight vertices) (distance : ℝ) :
    OffsetApart distance vertices := by
  obtain ⟨u, hu⟩ := h
  intro s hs t ht a _ b _
  obtain ⟨i, hi, rfl⟩ := (mem_pieces_parallelOffset _).mp hs
  obtain ⟨k, hk, rfl⟩ := exists_of_mem_pieces ht
  have hlen : 1 < vertices.length := by omega
  have hunit := unit_of_straight hchain hu hlen
  obtain ⟨x, hx⟩ := exists_offsetAt_eq_frame hchain hu distance hlen (by omega : i < vertices.length)
  obtain ⟨x', hx'⟩ := exists_offsetAt_eq_frame hchain hu distance hlen hi
  obtain ⟨z, hz⟩ := exists_vertexAt_eq_frame hu (by omega : k < vertices.length)
  obtain ⟨z', hz'⟩ := exists_vertexAt_eq_frame hu hk
  dsimp only
  rw [hx, hx', hz, hz', along_frame, along_frame, mathDist_frame hunit]
  apply le_sqrt_of_sq_le
  dsimp only [along]
  nlinarith [sq_nonneg (x + a * (x' - x) - (z + b * (z' - z)))]

/-- **The offset of a path without reversals.** It keeps the distance exactly when the path does not turn. -/
theorem offsetApart_iff_straight {vertices : List (Point ℝ)}
    (hchain : vertices.IsChain fun p q => 1 / 10000 < mathDist sqrt p q) {distance : ℝ} (hdistance : 0 < distance)
    (hreversal : NoReversal vertices) : OffsetApart distance vertices ↔ Straight vertices :=
  ⟨straight_of_offsetApart hchain hdistance hreversal, fun h => h.offsetApart hchain distance⟩

end ZapTrace.DiffPair
