import Mathlib.Analysis.SpecialFunctions.Trigonometric.Bounds
import ZapTrace.Algo.FilletChains
import ZapTrace.Library.Arc

/-!
# Whether fillets connect

An arc starts and ends on the circle of its centre and radius; what is left of the two traces ends at the tangent
points. The angle between the traces is used where the angle that the path turns by is needed, so the tangent
points are on the circle just when the corner is a right angle.

## Main results

* `connects_emitFilletSegments_iff`: when the output at a corner connects
* `filletsConnect_iff`: when the output of a chain connects
-/

set_option linter.unusedSectionVars false

namespace ZapTrace.Routing.Fillet

open Plane Arc FilletParams List Real

noncomputable section Arcs

/-! ## The arc at a corner -/

theorem norm_exact (u : Point ℝ) : exactFunctions.norm u = sqrt (u.1 ^ 2 + u.2 ^ 2) := rfl

theorem unit_of_norm {u : Point ℝ} {l : ℝ} (hl : 0 < l) (hnorm : exactFunctions.norm u = l) :
    (u.1 / l) ^ 2 + (u.2 / l) ^ 2 = 1 := by
  have hsq : u.1 ^ 2 + u.2 ^ 2 = l ^ 2 := by
    rw [← hnorm, norm_exact, sq_sqrt (by positivity)]
  rw [div_pow, div_pow, ← add_div, hsq, div_self (by positivity)]

/-- The radius of an arc, in terms of the parameters and the two traces, when it starts as far from the corner
as its radius. -/
def rightRadius (params : FilletParams ℝ) (previous segment : TraceSegment ℝ) : ℝ :=
  min (min (exactFunctions.norm (vec previous.start previous.stop) * tangentClipRatio)
      (exactFunctions.norm (vec segment.start segment.stop) * tangentClipRatio))
    (min (min params.default_radius (max (max previous.width segment.width) (1 / 100) * params.radius_scale))
      (params.max_radius.getD params.default_radius))

variable {previous segment : TraceSegment ℝ}

theorem joint_exact {min_angle_rad : ℝ} {joint : FilletJoint ℝ}
    (h : eligibleFilletJoint exactFunctions previous segment min_angle_rad = some joint) :
    joint.point = previous.stop ∧
      joint.incoming_length = exactFunctions.norm (vec previous.start previous.stop) ∧
      joint.outgoing_length = exactFunctions.norm (vec segment.start segment.stop) ∧
      joint.inverse_incoming = (-joint.incoming_unit.1, -joint.incoming_unit.2) ∧
      joint.internal_angle = Real.pi -
        Real.arccos (max (-1) (min 1 (dot joint.inverse_incoming joint.outgoing_unit))) ∧
      5 * Real.pi / 180 ≤ joint.internal_angle := by
  unfold eligibleFilletJoint filletJointVectors at h
  dsimp only at h
  split at h
  · cases h
  · split at h
    · cases h
    · split at h
      · cases h
      · rename_i hvectors
        split at hvectors
        · cases hvectors
        · cases hvectors
          split at h
          · cases h
          · split at h
            · cases h
            · rename_i hangle
              cases h
              exact ⟨rfl, rfl, rfl, rfl, rfl, not_lt.mp hangle⟩

/-- The half angle of a joint: its sine and cosine, and what they have to do with the directions. -/
theorem halfAngle_exact {u v : Point ℝ} (hu : u.1 ^ 2 + u.2 ^ 2 = 1) (hv : v.1 ^ 2 + v.2 ^ 2 = 1) {angle : ℝ}
    (hangle : angle = Real.pi - Real.arccos (max (-1) (min 1 (dot (-u.1, -u.2) v))))
    (hfive : 5 * Real.pi / 180 ≤ angle) :
    1 / 10 ^ 9 < sin (angle / 2) ∧ 0 ≤ Real.cos (angle / 2) ∧
      2 - 2 * (u.1 * v.1 + u.2 * v.2) = 4 * sin (angle / 2) ^ 2 := by
  have hpi := pi_pos
  have hc : dot (-u.1, -u.2) v = -(u.1 * v.1 + u.2 * v.2) := by
    unfold dot
    ring
  have hle : dot (-u.1, -u.2) v ≤ 1 := by
    rw [hc]
    nlinarith [sq_nonneg (u.1 + v.1), sq_nonneg (u.2 + v.2)]
  have hge : -1 ≤ dot (-u.1, -u.2) v := by
    rw [hc]
    nlinarith [sq_nonneg (u.1 - v.1), sq_nonneg (u.2 - v.2)]
  rw [min_eq_right hle, max_eq_right hge] at hangle
  have hle_pi : angle ≤ Real.pi := by
    rw [hangle]
    linarith [arccos_nonneg (dot (-u.1, -u.2) v)]
  refine ⟨?_, ?_, ?_⟩
  · have hsin := mul_le_sin (x := angle / 2) (by linarith) (by linarith)
    have hbound : (1 : ℝ) / 36 ≤ 2 / Real.pi * (angle / 2) := by
      rw [div_mul_div_comm, mul_comm Real.pi 2, mul_div_mul_left _ _ two_ne_zero, le_div_iff₀ hpi]
      linarith
    linarith
  · exact cos_nonneg_of_mem_Icc ⟨by linarith, by linarith⟩
  · have hcos : Real.cos angle = u.1 * v.1 + u.2 * v.2 := by
      rw [hangle, cos_pi_sub, cos_arccos hge hle, hc, neg_neg]
    have hdouble : Real.cos angle = 1 - 2 * sin (angle / 2) ^ 2 := by
      have htwo := cos_two_mul (angle / 2)
      rw [mul_div_cancel₀ angle two_ne_zero, cos_sq'] at htwo
      linarith
    linarith

/-- An arc by its radius, the directions at the corner, and the sine and cosine of half of what the code takes
for the angle of the corner. -/
structure ArcAt (params : FilletParams ℝ) (previous segment : TraceSegment ℝ) (geometry : FilletGeometry ℝ)
    (u v : Point ℝ) (S C : ℝ) : Prop where
  incoming : ∃ l, 0 < l ∧ exactFunctions.norm (vec previous.start previous.stop) = l ∧
    u = ((vec previous.start previous.stop).1 / l, (vec previous.start previous.stop).2 / l) ∧
    geometry.radius * C / S ≤ l * tangentClipRatio
  outgoing : ∃ l, 0 < l ∧ exactFunctions.norm (vec segment.start segment.stop) = l ∧
    v = ((vec segment.start segment.stop).1 / l, (vec segment.start segment.stop).2 / l) ∧
    geometry.radius * C / S ≤ l * tangentClipRatio
  radius_pos : 0 < geometry.radius
  sine_pos : 0 < S
  cosine_pos : 0 < C
  sq_add_sq : S ^ 2 + C ^ 2 = 1
  angle : 2 - 2 * (u.1 * v.1 + u.2 * v.2) = 4 * S ^ 2
  tangent_in : geometry.tangent_in =
    (previous.stop.1 - u.1 * (geometry.radius * C / S), previous.stop.2 - u.2 * (geometry.radius * C / S))
  tangent_out : geometry.tangent_out =
    (segment.start.1 + v.1 * (geometry.radius * C / S), segment.start.2 + v.2 * (geometry.radius * C / S))
  center : geometry.center = (previous.stop.1 + (v.1 - u.1) / (2 * S) * (geometry.radius / S),
    previous.stop.2 + (v.2 - u.2) / (2 * S) * (geometry.radius / S))
  radius_eq : S = C → geometry.radius = rightRadius params previous segment

variable {params : FilletParams ℝ}

/-- The radius and the distance of an arc from the corner, for a half angle with a tangent. -/
theorem radiusTangent_exact {joint : FilletJoint ℝ} {radius tangent_distance trace_width T : ℝ}
    (hT : tan (joint.internal_angle / 2) = T) (hin : 0 < joint.incoming_length)
    (h : filletRadiusTangent exactFunctions params previous segment joint = .ok (some (radius, tangent_distance, trace_width))) :
    0 < T ∧ 0 < radius ∧ tangent_distance = radius / T ∧
      (T = 1 → radius = min (min (joint.incoming_length * tangentClipRatio) (joint.outgoing_length * tangentClipRatio))
        (min (min params.default_radius (max (max previous.width segment.width) (1 / 100) * params.radius_scale))
          (params.max_radius.getD params.default_radius))) := by
  unfold filletRadiusTangent at h
  dsimp only at h
  rw [show exactFunctions.tan (joint.internal_angle / 2) = T from hT] at h
  generalize min (min params.default_radius (max (max previous.width segment.width) (1 / 100) *
    params.radius_scale)) (params.max_radius.getD params.default_radius) = radius₀ at h ⊢
  split at h
  · cases h
  · rename_i htangent
    have hTpos : 0 < T := lt_of_lt_of_le (by positivity) (not_lt.mp htangent)
    split at h
    · cases h
    · split at h
      · cases h
      · rename_i hratio
        split at h
        · cases h
        · cases h
          have hratio_pos : 0 < min (min (joint.incoming_length * tangentClipRatio / (radius₀ / T))
              (joint.outgoing_length * tangentClipRatio / (radius₀ / T))) 1 :=
            lt_of_lt_of_le (by positivity) (not_lt.mp hratio)
          -- a negative distance would make the ratio negative
          have hdistance : 0 < radius₀ / T := by
            have hquotient := hratio_pos.trans_le ((min_le_left _ _).trans (min_le_left _ _))
            have hnum : 0 < joint.incoming_length * tangentClipRatio :=
              mul_pos hin (by unfold tangentClipRatio; positivity)
            exact (div_pos_iff_of_pos_left hnum).mp hquotient
          have hradius : 0 < radius₀ := (div_pos_iff_of_pos_right hTpos).mp hdistance
          refine ⟨hTpos, mul_pos hradius hratio_pos, by ring, ?_⟩
          rintro rfl
          rw [div_one, mul_min_of_nonneg _ _ hradius.le, mul_min_of_nonneg _ _ hradius.le,
            mul_div_cancel₀ _ hradius.ne', mul_div_cancel₀ _ hradius.ne', mul_one]
variable {geometry : FilletGeometry ℝ}

theorem exists_arcAt (h : filletGeometry exactFunctions params previous segment = .ok (some geometry)) :
    ∃ u v S C, ArcAt params previous segment geometry u v S C := by
  unfold filletGeometry at h
  split at h
  · cases h
  · rename_i joint hjoint
    obtain ⟨hin, hout, hunit_in, hunit_out⟩ := eligibleFilletJoint_spec exactFunctions hjoint
    obtain ⟨hpoint, hlength_in, hlength_out, hinverse, hangle, hfive⟩ := joint_exact hjoint
    cases hradius : filletRadiusTangent exactFunctions params previous segment joint with
    | error e =>
      rw [hradius] at h
      cases h
    | ok radius_tangent =>
      rw [hradius] at h
      cases radius_tangent with
      | none => cases h
      | some triple =>
        obtain ⟨radius, tangent_distance, trace_width⟩ := triple
        obtain ⟨hnonneg, hle_in, hle_out⟩ := filletRadiusTangent_spec exactFunctions params hin hradius
        have hu : joint.incoming_unit.1 ^ 2 + joint.incoming_unit.2 ^ 2 = 1 := by
          rw [hunit_in]
          exact unit_of_norm hin hlength_in.symm
        have hv : joint.outgoing_unit.1 ^ 2 + joint.outgoing_unit.2 ^ 2 = 1 := by
          rw [hunit_out]
          exact unit_of_norm hout hlength_out.symm
        rw [hinverse] at hangle
        obtain ⟨hsine, hcosine, hdot⟩ := halfAngle_exact hu hv hangle hfive
        have hsine_pos : 0 < sin (joint.internal_angle / 2) := lt_trans (by positivity) hsine
        obtain ⟨hT, hradius_pos, hdistance, hright⟩ :=
          radiusTangent_exact (tan_eq_sin_div_cos _) hin hradius
        have hcosine_pos : 0 < Real.cos (joint.internal_angle / 2) := by
          rcases hcosine.lt_or_eq with hpos | hzero
          · exact hpos
          · rw [← hzero, div_zero] at hT
            exact absurd hT (lt_irrefl 0)
        -- the bisector is twice the sine long
        have hbisector : exactFunctions.norm (joint.inverse_incoming.1 + joint.outgoing_unit.1,
            joint.inverse_incoming.2 + joint.outgoing_unit.2) = 2 * sin (joint.internal_angle / 2) := by
          rw [norm_exact, hinverse, ← sqrt_sq (by positivity : 0 ≤ 2 * sin (joint.internal_angle / 2))]
          congr 1
          linear_combination hu + hv + hdot
        have hcenter := Except.ok.inj h
        unfold filletCenterGeometry at hcenter
        dsimp only at hcenter
        split at hcenter
        · cases hcenter
        · rw [hbisector, show exactFunctions.sin (joint.internal_angle / 2) =
            sin (joint.internal_angle / 2) from rfl, if_pos hsine, hinverse, hpoint] at hcenter
          have htangent : tangent_distance =
              radius * Real.cos (joint.internal_angle / 2) / sin (joint.internal_angle / 2) := by
            rw [hdistance, div_div_eq_mul_div]
          rw [htangent] at hcenter hle_in hle_out
          cases hcenter
          refine ⟨joint.incoming_unit, joint.outgoing_unit, sin (joint.internal_angle / 2),
            Real.cos (joint.internal_angle / 2), ?_⟩
          exact
            { incoming := ⟨joint.incoming_length, hin, hlength_in.symm, hunit_in, hle_in.trans_eq (mul_comm _ _)⟩
              outgoing := ⟨joint.outgoing_length, hout, hlength_out.symm, hunit_out, hle_out.trans_eq (mul_comm _ _)⟩
              radius_pos := hradius_pos
              sine_pos := hsine_pos
              cosine_pos := hcosine_pos
              sq_add_sq := sin_sq_add_cos_sq _
              angle := hdot
              tangent_in := rfl
              tangent_out := rfl
              center := by
                dsimp only
                rw [neg_add_eq_sub, neg_add_eq_sub]
              radius_eq := fun heq => by
                dsimp only
                rw [rightRadius, ← hlength_in, ← hlength_out]
                refine hright ?_
                rw [heq, div_self hcosine_pos.ne'] }

/-! ## The pieces of an arc -/

/-- How many pieces an arc has. -/
def pieceCount (n_segments : ℤ) : ℕ := (max n_segments 2).toNat

theorem two_le_pieceCount (n_segments : ℤ) : 2 ≤ pieceCount n_segments := by
  unfold pieceCount
  have := le_max_right n_segments 2
  omega

def arcPoint (center t1 t2 : Point ℝ) (r : ℝ) (n i : ℕ) : Point ℝ :=
  center + polar r (direction (vec center t1) +
    sweep (direction (vec center t2) - direction (vec center t1)) * (i / n))

theorem approxArc_exact (center t1 t2 : Point ℝ) (r : ℝ) (n_segments : ℤ) (width : ℝ) (net_id layer : String) :
    approxArc exactFunctions center t1 t2 r n_segments width net_id layer =
      if |sweep (direction (vec center t2) - direction (vec center t1))| < 1 / 10 ^ 6 ∨
          ¬ (1 / 10 ^ 6) ^ 2 < 2 * r ^ 2 * (1 - Real.cos (sweep (direction (vec center t2) -
            direction (vec center t1)) / pieceCount n_segments)) then []
      else (range (pieceCount n_segments)).map fun i =>
        plainTrace layer (arcPoint center t1 t2 r (pieceCount n_segments) i)
          (arcPoint center t1 t2 r (pieceCount n_segments) (i + 1)) width net_id := by
  have hchord : ∀ i : ℕ, distSq (arcPoint center t1 t2 r (pieceCount n_segments) i)
      (arcPoint center t1 t2 r (pieceCount n_segments) (i + 1)) =
        2 * r ^ 2 * (1 - Real.cos (sweep (direction (vec center t2) -
          direction (vec center t1)) / pieceCount n_segments)) := by
    intro i
    unfold arcPoint distSq
    have hstep := chord_polar r
      (direction (vec center t1) + sweep (direction (vec center t2) -
        direction (vec center t1)) * (i / pieceCount n_segments))
      (direction (vec center t1) + sweep (direction (vec center t2) -
        direction (vec center t1)) * ((i + 1 : ℕ) / pieceCount n_segments))
    simp only [Prod.fst_add, Prod.snd_add, add_sub_add_left_eq_sub]
    rw [hstep]
    congr 3
    push_cast
    ring
  show (if |sweep (direction (vec center t2) - direction (vec center t1))| < 1 / 10 ^ 6 then []
    else (range (pieceCount n_segments)).filterMap fun i =>
    if (1 / 10 ^ 6) ^ 2 < distSq (arcPoint center t1 t2 r (pieceCount n_segments) i)
        (arcPoint center t1 t2 r (pieceCount n_segments) (i + 1)) then
      some (plainTrace layer (arcPoint center t1 t2 r (pieceCount n_segments) i)
        (arcPoint center t1 t2 r (pieceCount n_segments) (i + 1)) width net_id)
    else none) = _
  simp only [hchord]
  by_cases hsweep : |sweep (direction (vec center t2) - direction (vec center t1))| < 1 / 10 ^ 6
  · rw [if_pos hsweep, if_pos (.inl hsweep)]
  · rw [if_neg hsweep]
    split
    · rename_i hlong
      rw [if_neg (not_or.mpr ⟨hsweep, not_not.mpr hlong⟩)]
      exact congrFun filterMap_eq_map' _
    · rename_i hshort
      rw [if_pos (.inr hshort)]
      simp

variable {p q : Point ℝ}

theorem connects_pieces {n : ℕ} {points : ℕ → Point ℝ} {piece : ℕ → TraceSegment ℝ}
    (hstart : ∀ i, (piece i).start = points i) (hstop : ∀ i, (piece i).stop = points (i + 1)) (hn : 0 < n) :
    Connects p ((range n).map piece) q ↔ points 0 = p ∧ points n = q := by
  have hall : ∀ k, Connects (points 0) ((range k).map piece) (points k) := by
    intro k
    induction k with
    | zero => rfl
    | succ k ih =>
      rw [range_succ, map_append]
      exact connects_append.mpr ⟨points k, ih, hstart k, hstop k⟩
  have hne : (range n).map piece ≠ [] := by simp [hn.ne']
  constructor
  · exact fun h => (hall n).eq_of_ne_nil h hne
  · rintro ⟨rfl, rfl⟩
    exact hall n

namespace ArcAt

variable {params : FilletParams ℝ} {previous segment : TraceSegment ℝ} {geometry : FilletGeometry ℝ}
  {u v : Point ℝ} {S C : ℝ}

theorem unit_in (h : ArcAt params previous segment geometry u v S C) : u.1 ^ 2 + u.2 ^ 2 = 1 := by
  obtain ⟨l, hl, hnorm, rfl, -⟩ := h.incoming
  exact unit_of_norm hl hnorm

theorem unit_out (h : ArcAt params previous segment geometry u v S C) : v.1 ^ 2 + v.2 ^ 2 = 1 := by
  obtain ⟨l, hl, hnorm, rfl, -⟩ := h.outgoing
  exact unit_of_norm hl hnorm

theorem tangent_pos (h : ArcAt params previous segment geometry u v S C) : 0 < geometry.radius * C / S :=
  div_pos (mul_pos h.radius_pos h.cosine_pos) h.sine_pos

theorem right_iff (h : ArcAt params previous segment geometry u v S C) :
    dot (vec previous.start previous.stop) (vec segment.start segment.stop) = 0 ↔ S = C := by
  obtain ⟨l, hl, -, hu, -⟩ := h.incoming
  obtain ⟨l', hl', -, hv, -⟩ := h.outgoing
  have hdot : dot (vec previous.start previous.stop) (vec segment.start segment.stop) =
      l * l' * (u.1 * v.1 + u.2 * v.2) := by
    rw [hu, hv]
    unfold dot
    field_simp
  rw [hdot, mul_eq_zero, or_iff_right (mul_pos hl hl').ne']
  have hangle := h.angle
  have hsq := h.sq_add_sq
  constructor
  · intro hzero
    have hequal : S ^ 2 = C ^ 2 := by linarith
    exact (pow_left_inj₀ h.sine_pos.le h.cosine_pos.le two_ne_zero).mp hequal
  · rintro rfl
    linarith

theorem start_eq (h : ArcAt params previous segment geometry u v S C) :
    previous.start = (previous.stop.1 - u.1 * exactFunctions.norm (vec previous.start previous.stop),
      previous.stop.2 - u.2 * exactFunctions.norm (vec previous.start previous.stop)) := by
  obtain ⟨l, hl, hnorm, hu, -⟩ := h.incoming
  rw [hnorm, hu]
  ext
  · dsimp only [vec]
    field_simp
    ring
  · dsimp only [vec]
    field_simp
    ring

theorem length_gt (h : ArcAt params previous segment geometry u v S C) :
    geometry.radius * C / S < exactFunctions.norm (vec previous.start previous.stop) := by
  obtain ⟨l, hl, hnorm, -, hle⟩ := h.incoming
  rw [hnorm]
  have hclip : l * tangentClipRatio < l := by
    unfold tangentClipRatio
    linarith
  exact hle.trans_lt hclip

theorem distSq_start_tangent_in (h : ArcAt params previous segment geometry u v S C) :
    distSq previous.start geometry.tangent_in =
      (exactFunctions.norm (vec previous.start previous.stop) - geometry.radius * C / S) ^ 2 := by
  have hstart := h.start_eq
  generalize exactFunctions.norm (vec previous.start previous.stop) = l at hstart ⊢
  rw [hstart, h.tangent_in]
  unfold distSq
  linear_combination (l - geometry.radius * C / S) ^ 2 * h.unit_in

theorem tangent_in_ne_start (h : ArcAt params previous segment geometry u v S C) :
    geometry.tangent_in ≠ previous.start := by
  intro heq
  have hdist := h.distSq_start_tangent_in
  rw [heq, distSq, sub_self, sub_self, zero_pow two_ne_zero, add_zero] at hdist
  exact absurd (pow_eq_zero_iff two_ne_zero |>.mp hdist.symm) (sub_pos.mpr h.length_gt).ne'

theorem tangent_out_ne_start (h : ArcAt params previous segment geometry u v S C)
    (hjoin : previous.stop = segment.start) : geometry.tangent_out ≠ previous.start := by
  intro heq
  have hstart := h.start_eq
  have hlt := h.length_gt
  generalize exactFunctions.norm (vec previous.start previous.stop) = l at hstart hlt
  rw [← heq, h.tangent_out, ← hjoin] at hstart
  have h1 : v.1 * (geometry.radius * C / S) = -(u.1 * l) := by
    have := congrArg Prod.fst hstart
    dsimp only at this
    linarith
  have h2 : v.2 * (geometry.radius * C / S) = -(u.2 * l) := by
    have := congrArg Prod.snd hstart
    dsimp only at this
    linarith
  have hsq : (geometry.radius * C / S) ^ 2 = l ^ 2 := by
    have hleft : (geometry.radius * C / S) ^ 2 =
        (v.1 * (geometry.radius * C / S)) ^ 2 + (v.2 * (geometry.radius * C / S)) ^ 2 := by
      linear_combination -(geometry.radius * C / S) ^ 2 * h.unit_out
    rw [hleft, h1, h2]
    linear_combination l ^ 2 * h.unit_in
  have hpos := h.tangent_pos
  have hequal := (pow_left_inj₀ hpos.le (hpos.trans hlt).le two_ne_zero).mp hsq
  exact hlt.ne hequal

theorem tangent_in_ne_tangent_out (h : ArcAt params previous segment geometry u v S C)
    (hjoin : previous.stop = segment.start) : geometry.tangent_out ≠ geometry.tangent_in := by
  intro heq
  rw [h.tangent_in, h.tangent_out, ← hjoin] at heq
  have h1 := congrArg Prod.fst heq
  have h2 := congrArg Prod.snd heq
  dsimp only at h1 h2
  have hpos := h.tangent_pos
  generalize geometry.radius * C / S = k at h1 h2 hpos
  have hsum1 : u.1 + v.1 = 0 := by
    have : (u.1 + v.1) * k = 0 := by linarith
    exact (mul_eq_zero.mp this).resolve_right hpos.ne'
  have hsum2 : u.2 + v.2 = 0 := by
    have : (u.2 + v.2) * k = 0 := by linarith
    exact (mul_eq_zero.mp this).resolve_right hpos.ne'
  -- the directions are opposite, and the half angle is a right angle
  have hcosine : C ^ 2 = 0 := by
    linear_combination h.sq_add_sq + h.angle / 4 + (u.1 + v.1) / 4 * hsum1 + (u.2 + v.2) / 4 * hsum2 -
      h.unit_in / 4 - h.unit_out / 4
  exact h.cosine_pos.ne' (pow_eq_zero_iff two_ne_zero |>.mp hcosine)

/-! The tangent points are on the circle just when the corner is a right angle. -/

theorem radius_sq_iff (h : ArcAt params previous segment geometry u v S C) :
    geometry.radius ^ 2 * (1 + 2 * (C / S) * (C / S - 1)) = geometry.radius ^ 2 ↔ S = C := by
  have hr : geometry.radius ^ 2 ≠ 0 := pow_ne_zero 2 h.radius_pos.ne'
  have hx : C / S ≠ 0 := (div_pos h.cosine_pos h.sine_pos).ne'
  rw [mul_eq_left₀ hr, add_eq_left, mul_eq_zero, or_iff_right (mul_ne_zero two_ne_zero hx), sub_eq_zero,
    div_eq_one_iff_eq h.sine_pos.ne']
  exact eq_comm

theorem vec_center_in (h : ArcAt params previous segment geometry u v S C) :
    (vec geometry.center geometry.tangent_in).1 ^ 2 + (vec geometry.center geometry.tangent_in).2 ^ 2 =
      geometry.radius ^ 2 * (1 + 2 * (C / S) * (C / S - 1)) := by
  rw [← corner_tangent h.unit_in h.unit_out h.sine_pos h.sq_add_sq h.angle, h.center, h.tangent_in]
  unfold vec
  ring

theorem vec_center_out (h : ArcAt params previous segment geometry u v S C)
    (hjoin : previous.stop = segment.start) :
    (vec geometry.center geometry.tangent_out).1 ^ 2 + (vec geometry.center geometry.tangent_out).2 ^ 2 =
      geometry.radius ^ 2 * (1 + 2 * (C / S) * (C / S - 1)) := by
  -- the corner seen from the other side
  have hmirror := corner_tangent (u := (-v.1, -v.2)) (v := (-u.1, -u.2)) (S := S) (C := C)
    (r := geometry.radius) (by linear_combination h.unit_out) (by linear_combination h.unit_in) h.sine_pos
    h.sq_add_sq (by linear_combination h.angle)
  rw [← hmirror, h.center, h.tangent_out, ← hjoin]
  unfold vec
  ring

theorem polar_in_iff (h : ArcAt params previous segment geometry u v S C) :
    geometry.center + polar geometry.radius (direction (vec geometry.center geometry.tangent_in)) =
      geometry.tangent_in ↔ S = C := by
  rw [← h.radius_sq_iff, ← h.vec_center_in, ← polar_direction_eq_iff h.radius_pos, ← eq_sub_iff_add_eq']
  rfl

theorem polar_out_iff (h : ArcAt params previous segment geometry u v S C) (hjoin : previous.stop = segment.start) :
    geometry.center + polar geometry.radius (direction (vec geometry.center geometry.tangent_out)) =
      geometry.tangent_out ↔ S = C := by
  rw [← h.radius_sq_iff, ← h.vec_center_out hjoin, ← polar_direction_eq_iff h.radius_pos,
    ← eq_sub_iff_add_eq']
  rfl

theorem abs_sweep_of_right (h : ArcAt params previous segment geometry u v S C)
    (hjoin : previous.stop = segment.start) (hright : S = C) :
    |sweep (direction (vec geometry.center geometry.tangent_out) -
      direction (vec geometry.center geometry.tangent_in))| = Real.pi / 2 := by
  apply abs_sweep_eq
  have hradius := h.radius_sq_iff.mpr hright
  have hcos := cos_direction_sub h.radius_pos (h.vec_center_in.trans hradius)
    ((h.vec_center_out hjoin).trans hradius)
  have hsq := h.sq_add_sq
  have hangle := h.angle
  have hne := h.sine_pos.ne'
  have hzero : (vec geometry.center geometry.tangent_in).1 * (vec geometry.center geometry.tangent_out).1 +
      (vec geometry.center geometry.tangent_in).2 * (vec geometry.center geometry.tangent_out).2 = 0 := by
    rw [h.center, h.tangent_in, h.tangent_out, ← hjoin, ← hright]
    unfold vec
    dsimp only
    have hhalf : S ^ 2 = 1 / 2 := by
      rw [← hright] at hsq
      linarith
    have hinv : geometry.radius / S / (2 * S) = geometry.radius := by
      rw [div_div, show S * (2 * S) = 2 * S ^ 2 by ring, hhalf]
      norm_num
    have hsame : geometry.radius * S / S = geometry.radius := mul_div_cancel_right₀ _ hne
    have hb : ∀ a b : ℝ, (a - b) / (2 * S) * (geometry.radius / S) = (a - b) * geometry.radius := by
      intro a b
      rw [div_mul_eq_mul_div, mul_div_assoc, hinv]
    rw [hsame, hb, hb]
    linear_combination geometry.radius ^ 2 * (2 * hhalf + hangle / 2)
  rw [hzero] at hcos
  exact (mul_eq_zero.mp hcos).resolve_left (pow_ne_zero 2 h.radius_pos.ne')

end ArcAt

/-! ## The output connects -/

/-- The arc of a right corner leaves a piece of its first trace, and has pieces. -/
structure RightCorner (params : FilletParams ℝ) (previous segment : TraceSegment ℝ) : Prop where
  right : dot (vec previous.start previous.stop) (vec segment.start segment.stop) = 0
  leaves : 1 / 10 ^ 6 < exactFunctions.norm (vec previous.start previous.stop) - rightRadius params previous segment
  pieces : (1 / 10 ^ 6) ^ 2 < 2 * rightRadius params previous segment ^ 2 *
    (1 - Real.cos (Real.pi / 2 / pieceCount params.segments_per_arc))

theorem connects_arc_iff {u v : Point ℝ} {S C : ℝ} (h : ArcAt params previous segment geometry u v S C)
    (hjoin : previous.stop = segment.start) {p : Point ℝ} (last : TraceSegment ℝ)
    (hlast : last.start = geometry.tangent_out) (hp : geometry.tangent_out ≠ p) :
    Connects p (approxArc exactFunctions geometry.center geometry.tangent_in geometry.tangent_out geometry.radius
      params.segments_per_arc geometry.trace_width previous.net_id previous.layer ++ [last]) last.stop ↔
      p = geometry.tangent_in ∧ S = C ∧ (1 / 10 ^ 6) ^ 2 < 2 * geometry.radius ^ 2 *
        (1 - Real.cos (Real.pi / 2 / pieceCount params.segments_per_arc)) := by
  have hcount : (pieceCount params.segments_per_arc : ℝ) ≠ 0 := by
    have := two_le_pieceCount params.segments_per_arc
    exact_mod_cast (by omega : pieceCount params.segments_per_arc ≠ 0)
  have hquarter : S = C → Real.cos (sweep (direction (vec geometry.center geometry.tangent_out) -
      direction (vec geometry.center geometry.tangent_in)) / pieceCount params.segments_per_arc) =
        Real.cos (Real.pi / 2 / pieceCount params.segments_per_arc) := by
    intro hright
    rw [← cos_abs, abs_div, h.abs_sweep_of_right hjoin hright, Nat.abs_cast]
  have hnonempty : S = C → (1 / 10 ^ 6) ^ 2 < 2 * geometry.radius ^ 2 *
      (1 - Real.cos (Real.pi / 2 / pieceCount params.segments_per_arc)) → ¬ (|sweep (direction
        (vec geometry.center geometry.tangent_out) - direction (vec geometry.center geometry.tangent_in))| <
          1 / 10 ^ 6 ∨ ¬ (1 / 10 ^ 6) ^ 2 < 2 * geometry.radius ^ 2 * (1 - Real.cos (sweep (direction
            (vec geometry.center geometry.tangent_out) - direction (vec geometry.center geometry.tangent_in)) /
              pieceCount params.segments_per_arc))) := by
    intro hright hpieces
    rw [hquarter hright, h.abs_sweep_of_right hjoin hright, not_or, not_not]
    refine ⟨not_lt.mpr ?_, hpieces⟩
    have := two_le_pi
    linarith
  rw [approxArc_exact]
  split
  · rename_i hempty
    -- without an arc there is a gap
    constructor
    · rintro ⟨hstart, -⟩
      exact absurd (hlast.symm.trans hstart) hp
    · rintro ⟨-, hright, hpieces⟩
      exact absurd hempty (hnonempty hright hpieces)
  · rename_i hpieces
    have hends : ∀ m, Connects p ((range (pieceCount params.segments_per_arc)).map fun i =>
        plainTrace previous.layer
          (arcPoint geometry.center geometry.tangent_in geometry.tangent_out geometry.radius
            (pieceCount params.segments_per_arc) i)
          (arcPoint geometry.center geometry.tangent_in geometry.tangent_out geometry.radius
            (pieceCount params.segments_per_arc) (i + 1)) geometry.trace_width previous.net_id) m ↔
        arcPoint geometry.center geometry.tangent_in geometry.tangent_out geometry.radius
          (pieceCount params.segments_per_arc) 0 = p ∧
        arcPoint geometry.center geometry.tangent_in geometry.tangent_out geometry.radius
          (pieceCount params.segments_per_arc) (pieceCount params.segments_per_arc) = m :=
      fun m => connects_pieces (fun _ => rfl) (fun _ => rfl) (by
        have := two_le_pieceCount params.segments_per_arc
        omega)
    have hfirst : arcPoint geometry.center geometry.tangent_in geometry.tangent_out geometry.radius
        (pieceCount params.segments_per_arc) 0 =
          geometry.center + polar geometry.radius (direction (vec geometry.center geometry.tangent_in)) := by
      rw [arcPoint, Nat.cast_zero, zero_div, mul_zero, add_zero]
    have hfinal : arcPoint geometry.center geometry.tangent_in geometry.tangent_out geometry.radius
        (pieceCount params.segments_per_arc) (pieceCount params.segments_per_arc) =
          geometry.center + polar geometry.radius (direction (vec geometry.center geometry.tangent_out)) := by
      rw [arcPoint, div_self hcount, mul_one, polar_add_sweep, add_sub_cancel]
    have hlong := (not_not.mp (not_or.mp hpieces).2)
    rw [connects_append]
    simp only [hends, hfirst, hfinal]
    constructor
    · rintro ⟨m, ⟨hp', hm⟩, hstart, -⟩
      rw [hlast] at hstart
      have hright : S = C := (h.polar_out_iff hjoin).mp (hm.trans hstart.symm)
      rw [h.polar_in_iff.mpr hright] at hp'
      rw [hquarter hright] at hlong
      exact ⟨hp'.symm, hright, hlong⟩
    · rintro ⟨rfl, hright, -⟩
      exact ⟨geometry.tangent_out, ⟨h.polar_in_iff.mpr hright, (h.polar_out_iff hjoin).mpr hright⟩, hlast, rfl⟩

/-- **The output at a corner** connects just when the corner is a right angle, and the arc leaves a piece of the
first trace and has pieces. -/
theorem connects_emitFilletSegments_iff
    (h : filletGeometry exactFunctions params previous segment = .ok (some geometry))
    (hjoin : previous.stop = segment.start) :
    Connects previous.start
      ((emitFilletSegments exactFunctions params previous segment geometry).map Emitted.segment) segment.stop ↔
      RightCorner params previous segment := by
  obtain ⟨u, v, S, C, harc⟩ := exists_arcAt h
  have hcorner : RightCorner params previous segment ↔ S = C ∧
      (1 / 10 ^ 6) ^ 2 < distSq previous.start geometry.tangent_in ∧ (1 / 10 ^ 6) ^ 2 < 2 * geometry.radius ^ 2 *
        (1 - Real.cos (Real.pi / 2 / pieceCount params.segments_per_arc)) := by
    have hleaves : S = C → ((1 / 10 ^ 6) ^ 2 < distSq previous.start geometry.tangent_in ↔
        1 / 10 ^ 6 < exactFunctions.norm (vec previous.start previous.stop) - rightRadius params previous segment) := by
      intro hright
      have hradius : geometry.radius * C / S = rightRadius params previous segment := by
        rw [← hright, mul_div_cancel_right₀ _ harc.sine_pos.ne', harc.radius_eq hright]
      have hlt := harc.length_gt
      rw [harc.distSq_start_tangent_in, hradius]
      rw [hradius] at hlt
      exact pow_lt_pow_iff_left₀ (by positivity) (sub_pos.mpr hlt).le two_ne_zero
    constructor
    · rintro ⟨hdot, hleft, hpieces⟩
      have hright := harc.right_iff.mp hdot
      rw [← harc.radius_eq hright] at hpieces
      exact ⟨hright, (hleaves hright).mpr hleft, hpieces⟩
    · rintro ⟨hright, hleft, hpieces⟩
      rw [harc.radius_eq hright] at hpieces
      exact ⟨harc.right_iff.mpr hright, (hleaves hright).mp hleft, hpieces⟩
  rw [hcorner]
  have hsegments : ∀ arc : List (TraceSegment ℝ), (arc.map Emitted.arc).map Emitted.segment = arc := by
    intro arc
    rw [map_map]
    exact map_id arc
  unfold emitFilletSegments
  rw [map_append, map_append, hsegments, map_singleton]
  split
  · rename_i hkept
    rw [map_singleton, append_assoc, singleton_append]
    have harcs := connects_arc_iff harc hjoin (p := geometry.tangent_in)
      (plainTrace segment.layer geometry.tangent_out segment.stop segment.width segment.net_id) rfl
      (harc.tangent_in_ne_tangent_out hjoin)
    constructor
    · rintro ⟨-, hrest⟩
      obtain ⟨-, hright, hpieces⟩ := harcs.mp hrest
      exact ⟨hright, hkept, hpieces⟩
    · rintro ⟨hright, -, hpieces⟩
      exact ⟨rfl, harcs.mpr ⟨rfl, hright, hpieces⟩⟩
  · rename_i hdropped
    -- without the first trace the output starts elsewhere
    have harcs := connects_arc_iff harc hjoin (p := previous.start)
      (plainTrace segment.layer geometry.tangent_out segment.stop segment.width segment.net_id) rfl
      (harc.tangent_out_ne_start hjoin)
    constructor
    · intro hconnects
      exact absurd (harcs.mp hconnects).1.symm harc.tangent_in_ne_start
    · rintro ⟨-, hkept, -⟩
      exact absurd hkept hdropped

/-- The corners of a chain, from head to tail, are right where the code puts an arc. After an arc the next
corner is not looked at. -/
inductive RoundCorners (params : FilletParams ℝ) : List (TraceSegment ℝ) → Prop
  | nil : RoundCorners params []
  | single (segment : TraceSegment ℝ) : RoundCorners params [segment]
  | straight {previous segment : TraceSegment ℝ} {rest : List (TraceSegment ℝ)}
      (hgeometry : filletGeometry exactFunctions params previous segment = .ok none)
      (hrest : RoundCorners params (segment :: rest)) : RoundCorners params (previous :: segment :: rest)
  | arc {previous segment : TraceSegment ℝ} {rest : List (TraceSegment ℝ)} {geometry : FilletGeometry ℝ}
      (hgeometry : filletGeometry exactFunctions params previous segment = .ok (some geometry))
      (hcorner : RightCorner params previous segment) (hrest : RoundCorners params rest) :
      RoundCorners params (previous :: segment :: rest)

theorem roundCorners_cons_cons_iff {rest : List (TraceSegment ℝ)} :
    RoundCorners params (previous :: segment :: rest) ↔
      match filletGeometry exactFunctions params previous segment with
      | .error _ => False
      | .ok none => RoundCorners params (segment :: rest)
      | .ok (some _) => RightCorner params previous segment ∧ RoundCorners params rest := by
  constructor
  · intro h
    cases h with
    | straight hgeometry hrest => rwa [hgeometry]
    | arc hgeometry hcorner hrest =>
      rw [hgeometry]
      exact ⟨hcorner, hrest⟩
  · intro h
    cases hgeometry : filletGeometry exactFunctions params previous segment with
    | error e =>
      rw [hgeometry] at h
      exact h.elim
    | ok geometry =>
      rw [hgeometry] at h
      cases geometry with
      | none => exact .straight hgeometry h
      | some geometry => exact .arc hgeometry h.1 h.2

def OutputConnects (params : FilletParams ℝ) (p : Point ℝ) (chain : List (TraceSegment ℝ)) (q : Point ℝ) : Prop :=
  ∃ emitted, filletChain exactFunctions params chain = .ok emitted ∧ Connects p (emitted.map Emitted.segment) q

theorem Connects.emit_append {emitted : List (Emitted ℝ)} :
    Connects p ((emitFilletSegments exactFunctions params previous segment geometry ++ emitted).map
        Emitted.segment) q ↔
      Connects p ((emitFilletSegments exactFunctions params previous segment geometry).map Emitted.segment)
        segment.stop ∧ Connects segment.stop (emitted.map Emitted.segment) q := by
  rw [map_append, connects_append]
  constructor
  · rintro ⟨m, hfirst, hsecond⟩
    have hm : segment.stop = m := by
      unfold emitFilletSegments at hfirst
      rw [map_append, connects_append] at hfirst
      obtain ⟨_, -, -, hm⟩ := hfirst
      exact hm
    rw [hm]
    exact ⟨hfirst, hsecond⟩
  · rintro ⟨hfirst, hsecond⟩
    exact ⟨segment.stop, hfirst, hsecond⟩

/-- The output of a chain connects just when its corners are right. -/
theorem outputConnects_iff : ∀ {chain : List (TraceSegment ℝ)} {p q : Point ℝ},
    Connects p chain q → (OutputConnects params p chain q ↔ RoundCorners params chain)
  | [], p, q, h => by
    constructor
    · exact fun _ => .nil
    · exact fun _ => ⟨[], rfl, h⟩
  | [segment], p, q, h => by
    constructor
    · exact fun _ => .single segment
    · exact fun _ => ⟨[.trace segment], rfl, h⟩
  | previous :: segment :: rest, p, q, ⟨hstart, hjoin, hrest⟩ => by
    rw [roundCorners_cons_cons_iff, OutputConnects, filletChain_cons_cons]
    cases hgeometry : filletGeometry exactFunctions params previous segment with
    | error e =>
      constructor
      · rintro ⟨emitted, hemitted, -⟩
        cases hemitted
      · exact False.elim
    | ok geometry =>
      cases geometry with
      | none =>
        -- the first trace stays
        have hnext : Connects previous.stop (segment :: rest) q := ⟨hjoin, hrest⟩
        dsimp only
        rw [← outputConnects_iff hnext, OutputConnects]
        cases filletChain exactFunctions params (segment :: rest) with
        | error e =>
          constructor
          · rintro ⟨emitted, hemitted, -⟩
            cases hemitted
          · rintro ⟨emitted, hemitted, -⟩
            cases hemitted
        | ok tail =>
          constructor
          · rintro ⟨emitted, hemitted, hconnects⟩
            cases hemitted
            exact ⟨tail, rfl, hconnects.2⟩
          · rintro ⟨emitted, hemitted, hconnects⟩
            cases hemitted
            exact ⟨.trace previous :: tail, rfl, hstart, hconnects⟩
      | some geometry =>
        dsimp only
        rw [← outputConnects_iff hrest,
          ← connects_emitFilletSegments_iff hgeometry hjoin.symm, OutputConnects, hstart]
        cases filletChain exactFunctions params rest with
        | error e =>
          constructor
          · rintro ⟨emitted, hemitted, -⟩
            cases hemitted
          · rintro ⟨-, emitted, hemitted, -⟩
            cases hemitted
        | ok tail =>
          constructor
          · rintro ⟨emitted, hemitted, hconnects⟩
            cases hemitted
            obtain ⟨hfirst, hsecond⟩ := Connects.emit_append.mp hconnects
            exact ⟨hfirst, tail, rfl, hsecond⟩
          · rintro ⟨hfirst, emitted, hemitted, hsecond⟩
            cases hemitted
            exact ⟨emitFilletSegments exactFunctions params previous segment geometry ++ tail, rfl,
              Connects.emit_append.mpr ⟨hfirst, hsecond⟩⟩

/-- The output leads from the first point of a chain to its last. -/
def FilletsConnect (params : FilletParams ℝ) (vertices : List (Point ℝ)) (traces : List (TraceSegment ℝ)) : Prop :=
  ∃ output p q, applyFillets exactFunctions params traces = .ok output ∧ vertices.head? = some p ∧
    vertices.getLast? = some q ∧ Connects p output q

theorem SimpleChain.filletTraces_eq {vertices : List (Point ℝ)} {traces : List (TraceSegment ℝ)}
    (h : SimpleChain vertices traces) (params : FilletParams ℝ) :
    filletTraces exactFunctions params traces = filletChain exactFunctions params (inOrder vertices traces) := by
  by_cases hne : traces = []
  · subst hne
    rfl
  · unfold filletTraces
    rw [h.orderedChains_eq hne, h.orderChain_eq, mapM_cons, mapM_nil]
    cases filletChain exactFunctions params (inOrder vertices traces) with
    | error e => rfl
    | ok emitted =>
      show Except.ok [emitted].flatten = _
      rw [flatten_singleton]

theorem SimpleChain.filletsConnect_iff_outputConnects {vertices : List (Point ℝ)} {traces : List (TraceSegment ℝ)}
    (h : SimpleChain vertices traces) (hp : vertices.head? = some p) (hq : vertices.getLast? = some q) :
    FilletsConnect params vertices traces ↔ OutputConnects params p (inOrder vertices traces) q := by
  rw [FilletsConnect, OutputConnects, applyFillets, h.filletTraces_eq]
  cases filletChain exactFunctions params (inOrder vertices traces) with
  | error e =>
    constructor
    · rintro ⟨output, p', q', houtput, -⟩
      cases houtput
    · rintro ⟨emitted, hemitted, -⟩
      cases hemitted
  | ok emitted =>
    constructor
    · rintro ⟨output, p', q', houtput, hp', hq', hconnects⟩
      cases houtput
      obtain rfl : p' = p := Option.some.inj (hp'.symm.trans hp)
      obtain rfl : q' = q := Option.some.inj (hq'.symm.trans hq)
      exact ⟨emitted, rfl, hconnects⟩
    · rintro ⟨emitted', hemitted, hconnects⟩
      cases hemitted
      exact ⟨emitted.map Emitted.segment, p, q, rfl, hp, hq, hconnects⟩

/-- **Fillets connect** just when every corner that gets an arc is a right angle, with an arc that leaves a piece
of the first trace and has pieces, and no corner divides by zero. -/
theorem filletsConnect_iff {params : FilletParams ℝ} {vertices : List (Point ℝ)} {traces : List (TraceSegment ℝ)}
    (h : SimpleChain vertices traces) :
    FilletsConnect params vertices traces ↔ RoundCorners params (inOrder vertices traces) := by
  obtain ⟨p, q, hp, hq⟩ := h.exists_head_getLast
  rw [h.filletsConnect_iff_outputConnects hp hq, outputConnects_iff (h.connects_inOrder hp hq)]

/-! ## A corner of two traces -/

theorem tan_half_arccos {a b : ℝ} (hb : 0 < b) (hunit : a ^ 2 + b ^ 2 = 1) :
    tan (Real.arccos a / 2) = (1 - a) / b := by
  have hle : a ≤ 1 := by nlinarith
  have hge : -1 ≤ a := by nlinarith
  have hcos : Real.cos (Real.arccos a) = a := cos_arccos hge hle
  have hsin : sin (Real.arccos a) = b := by
    rw [sin_arccos, show 1 - a ^ 2 = b ^ 2 by linarith, sqrt_sq hb.le]
  have hdouble_cos := cos_two_mul (Real.arccos a / 2)
  have hdouble_sin := sin_two_mul (Real.arccos a / 2)
  rw [mul_div_cancel₀ _ two_ne_zero] at hdouble_cos hdouble_sin
  have hsq := sin_sq_add_cos_sq (Real.arccos a / 2)
  have hcos_ne : Real.cos (Real.arccos a / 2) ≠ 0 := by
    intro hzero
    rw [hsin, hzero, mul_zero] at hdouble_sin
    exact hb.ne' hdouble_sin
  rw [tan_eq_sin_div_cos, div_eq_div_iff hcos_ne hb.ne']
  rw [hcos] at hdouble_cos
  rw [hsin] at hdouble_sin
  linear_combination sin (Real.arccos a / 2) * hdouble_sin + Real.cos (Real.arccos a / 2) * hdouble_cos +
    2 * Real.cos (Real.arccos a / 2) * hsq

/-- Two traces of ten millimetres, the second in a direction. -/
def bentTraces (a b : ℝ) : List (TraceSegment ℝ) :=
  [plainTrace "top" (0, 0) (10, 0) (1 / 5) "N", plainTrace "top" (10, 0) (10 + 10 * a, 10 * b) (1 / 5) "N"]

def bentVertices (a b : ℝ) : List (Point ℝ) := [(0, 0), (10, 0), (10 + 10 * a, 10 * b)]

theorem simpleChain_bentTraces {a b : ℝ} (hb : 0 < b) : SimpleChain (bentVertices a b) (bentTraces a b) where
  length_eq := rfl
  nodup := by
    simp [bentVertices, hb.ne']
  joins := by
    intro i s p q hs hp hq
    match i with
    | 0 =>
      cases hs
      cases hp
      cases hq
      exact .inl ⟨rfl, rfl⟩
    | 1 =>
      cases hs
      cases hp
      cases hq
      exact .inl ⟨rfl, rfl⟩
    | i + 2 => cases hs
  single := by
    intro s hs
    cases hs
  net := ⟨"top", "N", by decide, by simp [bentTraces, plainTrace]⟩

/-- At an angle between a right one and about 127 degrees the code puts an arc. -/
theorem exists_filletGeometry_bentTraces {a b : ℝ} (hb : 0 < b) (hunit : a ^ 2 + b ^ 2 = 1) (ha : 0 ≤ a)
    (ha' : a ≤ 3 / 5) :
    ∃ geometry, filletGeometry exactFunctions defaults (plainTrace "top" (0, 0) (10, 0) (1 / 5) "N")
      (plainTrace "top" (10, 0) (10 + 10 * a, 10 * b) (1 / 5) "N") = .ok (some geometry) := by
  have hpi := pi_pos
  have hangle_le : Real.arccos a ≤ Real.pi / 2 := Real.arccos_le_pi_div_two.mpr ha
  have hangle_ge : Real.pi / 4 ≤ Real.arccos a := by
    by_contra hlt
    have hroot := arccos_le_pi_div_four.mp (not_le.mp hlt).le
    have htwo : (7 / 5 : ℝ) ≤ sqrt 2 := le_sqrt_of_sq_le (by norm_num)
    linarith
  have hb' : b ≤ 1 := by nlinarith
  have hnorm : ∀ x y : ℝ, x ^ 2 + y ^ 2 = 10 ^ 2 → exactFunctions.norm (x, y) = 10 := by
    intro x y h
    rw [norm_exact, h, sqrt_sq (by norm_num)]
  have hvectors : filletJointVectors exactFunctions (plainTrace "top" (0, 0) (10, 0) (1 / 5) "N")
      (plainTrace "top" (10, 0) (10 + 10 * a, 10 * b) (1 / 5) "N") = some ((1, 0), (a, b), 10, 10) := by
    have hin : vec ((0, 0) : Point ℝ) (10, 0) = (10, 0) := by norm_num [vec]
    have hout : vec ((10, 0) : Point ℝ) (10 + 10 * a, 10 * b) = (10 * a, 10 * b) := by simp [vec]
    unfold filletJointVectors plainTrace
    dsimp only
    rw [hin, hout, hnorm 10 0 (by norm_num), hnorm (10 * a) (10 * b) (by linear_combination 100 * hunit),
      if_neg (by norm_num)]
    dsimp only
    rw [mul_div_cancel_left₀ a (by norm_num), mul_div_cancel_left₀ b (by norm_num), div_self (by norm_num), zero_div]
  have hjoint : eligibleFilletJoint exactFunctions (plainTrace "top" (0, 0) (10, 0) (1 / 5) "N")
      (plainTrace "top" (10, 0) (10 + 10 * a, 10 * b) (1 / 5) "N")
      (exactFunctions.radians (defaults (K := ℝ)).min_angle_deg) =
        some ⟨(10, 0), (1, 0), (a, b), (-1, -0), 10, 10, Real.arccos a⟩ := by
    have hcos : dot ((-1, -0) : Point ℝ) (a, b) = -a := by
      unfold dot
      ring
    have htheta : exactFunctions.acos (max (-1) (min 1 (dot ((-1, -0) : Point ℝ) (a, b)))) = Real.pi - Real.arccos a := by
      rw [hcos, min_eq_right (by linarith), max_eq_right (by linarith)]
      exact arccos_neg a
    unfold eligibleFilletJoint
    rw [hvectors]
    dsimp only
    rw [htheta, if_neg (by simp [plainTrace]), if_neg (by simp [plainTrace]), if_neg, if_neg]
    · rw [show exactFunctions.pi = Real.pi from rfl, sub_sub_cancel]
      rfl
    · unfold RealFunctions.radians
      rw [show exactFunctions.pi = Real.pi from rfl, sub_sub_cancel]
      linarith
    · unfold RealFunctions.radians defaults
      rw [show exactFunctions.pi = Real.pi from rfl, not_or]
      constructor
      · linarith
      · linarith
  have hradius : ∃ radius tangent_distance trace_width, filletRadiusTangent exactFunctions defaults
      (plainTrace "top" (0, 0) (10, 0) (1 / 5) "N") (plainTrace "top" (10, 0) (10 + 10 * a, 10 * b) (1 / 5) "N")
      ⟨(10, 0), (1, 0), (a, b), (-1, -0), 10, 10, Real.arccos a⟩ = .ok (some (radius, tangent_distance, trace_width)) := by
    have htangent : 2 / 5 ≤ (1 - a) / b := by
      rw [le_div_iff₀ hb]
      linarith
    have htan : exactFunctions.tan (Real.arccos a / 2) = (1 - a) / b := tan_half_arccos hb hunit
    unfold filletRadiusTangent
    dsimp only
    rw [htan]
    generalize (1 - a) / b = T at htangent
    have hpos : 0 < T := by linarith
    have hwidth : min (min (defaults (K := ℝ)).default_radius
        (max (max (1 / 5) (1 / 5)) (1 / 100) * (defaults (K := ℝ)).radius_scale))
          ((defaults (K := ℝ)).max_radius.getD (defaults (K := ℝ)).default_radius) =
            1 / 2 := by
      norm_num [defaults]
    unfold plainTrace
    dsimp only
    rw [hwidth, if_neg (by linarith), if_neg (by positivity)]
    have hratio : (1 : ℝ) ≤ 10 * tangentClipRatio / (1 / 2 / T) := by
      unfold tangentClipRatio
      rw [le_div_iff₀ (by positivity), one_mul, div_le_iff₀ hpos]
      linarith
    rw [min_self, min_eq_right hratio, if_neg (by norm_num), if_neg (by norm_num [defaults])]
    exact ⟨_, _, _, rfl⟩
  obtain ⟨radius, tangent_distance, trace_width, hradius⟩ := hradius
  unfold filletGeometry
  rw [hjoint]
  dsimp only
  rw [hradius]
  have hcenter : ∃ geometry, filletCenterGeometry exactFunctions (plainTrace "top" (0, 0) (10, 0) (1 / 5) "N")
      (plainTrace "top" (10, 0) (10 + 10 * a, 10 * b) (1 / 5) "N")
      ⟨(10, 0), (1, 0), (a, b), (-1, -0), 10, 10, Real.arccos a⟩ radius tangent_distance trace_width =
        some geometry := by
    unfold filletCenterGeometry
    dsimp only
    rw [if_neg]
    · exact ⟨_, rfl⟩
    · rw [not_lt, norm_exact]
      apply le_sqrt_of_sq_le
      nlinarith
  obtain ⟨geometry, hcenter⟩ := hcenter
  exact ⟨geometry, congrArg Except.ok hcenter⟩

theorem inOrder_bentTraces (a b : ℝ) : inOrder (bentVertices a b) (bentTraces a b) = bentTraces a b := by
  simp [inOrder, bentVertices, bentTraces, turnedTo, plainTrace]

/-- A corner of about 127 degrees leaves a gap. -/
theorem not_filletsConnect_bentTraces : SimpleChain (bentVertices (3 / 5) (4 / 5)) (bentTraces (3 / 5) (4 / 5)) ∧
    ¬ FilletsConnect defaults (bentVertices (3 / 5) (4 / 5)) (bentTraces (3 / 5) (4 / 5)) := by
  have hchain := simpleChain_bentTraces (a := 3 / 5) (b := 4 / 5) (by norm_num)
  refine ⟨hchain, fun hconnect => ?_⟩
  rw [hchain.filletsConnect_iff_outputConnects rfl rfl, outputConnects_iff (hchain.connects_inOrder rfl rfl),
    inOrder_bentTraces, bentTraces, roundCorners_cons_cons_iff] at hconnect
  obtain ⟨geometry, hgeometry⟩ := exists_filletGeometry_bentTraces (a := 3 / 5) (b := 4 / 5) (by norm_num)
    (by norm_num) (by norm_num) (by norm_num)
  rw [hgeometry] at hconnect
  have hright := hconnect.1.right
  norm_num [dot, vec, plainTrace] at hright

/-- A right corner does not. -/
theorem filletsConnect_bentTraces :
    FilletsConnect defaults (bentVertices 0 1) (bentTraces 0 1) := by
  refine (filletsConnect_iff (simpleChain_bentTraces (by norm_num))).mpr ?_
  obtain ⟨geometry, hgeometry⟩ := exists_filletGeometry_bentTraces (a := 0) (b := 1) (by norm_num)
    (by norm_num) (by norm_num) (by norm_num)
  have hin : exactFunctions.norm (vec ((0, 0) : Point ℝ) (10, 0)) = 10 := by
    rw [norm_exact, sqrt_eq_iff_eq_sq (by positivity) (by norm_num)]
    norm_num [vec]
  have hout : exactFunctions.norm (vec ((10, 0) : Point ℝ) (10 + 10 * 0, 10 * 1)) = 10 := by
    rw [norm_exact, sqrt_eq_iff_eq_sq (by positivity) (by norm_num)]
    norm_num [vec]
  have hradius : rightRadius defaults (plainTrace "top" (0, 0) (10, 0) (1 / 5) "N")
      (plainTrace "top" (10, 0) (10 + 10 * 0, 10 * 1) (1 / 5) "N") = 1 / 2 := by
    unfold rightRadius plainTrace
    dsimp only
    rw [hin, hout]
    norm_num [defaults, tangentClipRatio]
  rw [inOrder_bentTraces]
  refine .arc hgeometry ?_ .nil
  refine ⟨?_, ?_, ?_⟩
  · norm_num [dot, vec, plainTrace]
  · rw [hradius]
    show _ < exactFunctions.norm (vec ((0, 0) : Point ℝ) (10, 0)) - _
    rw [hin]
    norm_num
  · have hcount : pieceCount (defaults (K := ℝ)).segments_per_arc = 8 := rfl
    have hpi := pi_pos
    have hcos := cos_le_one_sub_mul_cos_sq (x := Real.pi / 2 / 8) (by
      rw [abs_of_pos (by positivity)]
      linarith)
    have hsquare : 2 / Real.pi ^ 2 * (Real.pi / 2 / 8) ^ 2 = 1 / 128 := by
      field_simp
      norm_num
    rw [hradius, hcount]
    push_cast
    rw [hsquare] at hcos
    linarith

end Arcs

end ZapTrace.Routing.Fillet
