import ZapTrace.Algo.OffsetSpacing
import ZapTrace.Algo.SkewMatching

/-!
# The negative trace of a pair

The negative trace is the offset of the positive path, and all of it is drawn on `F.Cu`. The path runs through all
traces of the positive net, on whatever layers they are, and from trace to trace. So the negative trace is a partner of
the positive one when each piece of the path is a trace on the front and the path is straight. With a turn it comes too
close.

## Main results

* `validPartner_iff`: when the negative trace is a partner
-/

namespace ZapTrace.DiffPair

open List hiding getElem?_eq_some_iff
open Polyline Real

open Plane (Point along)
open scoped Plane
open Polyline (pieces)
open Routing.Fillet (plainTrace)

/-! ## Partners -/

noncomputable def matched (router : DiffPairRouter ℝ) (path : List (Point ℝ)) :
    Option (List (Point ℝ)) × List (Point ℝ) :=
  matchLengths sqrt router path (negVertices sqrt router path)

/-- No teeth are inserted: both paths stay as they are. -/
def NoMeanders (router : DiffPairRouter ℝ) (path : List (Point ℝ)) : Prop :=
  (matched router path).1.getD path = path ∧ (matched router path).2 = negVertices sqrt router path

/-- Negative traces follow the pieces of a path, each on the layer of a positive trace there, and keep a distance from
the positive traces on their layer. A layer is known by its copper: layers have several names. -/
structure Partner (copper : String → String) (distance : ℝ) (path : List (Point ℝ))
    (pos neg : List (Routing.TraceSegment ℝ)) : Prop where
  follows : ∀ (i : ℕ) (piece : Point ℝ × Point ℝ) (segment : Routing.TraceSegment ℝ), (pieces path)[i]? = some piece →
    neg[i]? = some segment → ∃ t ∈ pos, (t.start, t.stop) = piece ∧ copper t.layer = copper segment.layer
  spaced : ∀ segment ∈ neg, ∀ t ∈ pos, copper t.layer = copper segment.layer →
    Apart distance (segment.start, segment.stop) (t.start, t.stop)

/-- The returned traces of the negative net are a partner of those of the positive net. -/
def ValidPartner (copper : String → String) (router : DiffPairRouter ℝ) (pair : PairNets)
    (pos_result : PairResult ℝ) : Prop :=
  Partner copper (router.gap + router.width) (tracesToVertices sqrt pos_result.traces)
    (tracesOf pair.pos_id (routeSinglePair sqrt router pair pos_result).traces)
    (tracesOf pair.neg_id (routeSinglePair sqrt router pair pos_result).traces)

/-- Each piece of the path is a positive trace on the front: there is one, or the path is drawn again because the
negative path is longer by more than the mismatch. -/
def OnFront (copper : String → String) (router : DiffPairRouter ℝ) (traces : List (Routing.TraceSegment ℝ))
    (path : List (Point ℝ)) : Prop :=
  (matched router path).1 ≠ none ∨
    ∀ piece ∈ pieces path, ∃ t ∈ traces, (t.start, t.stop) = piece ∧ copper t.layer = copper "F.Cu"

/-- The path is straight, or it turns back on itself and its offset keeps the distance. -/
def KeepsDistance (distance : ℝ) (path : List (Point ℝ)) : Prop :=
  Straight path ∨ (¬ NoReversal path ∧ OffsetApart distance path)

section Partners

variable {copper : String → String} {router : DiffPairRouter ℝ} {pair : PairNets}
variable {path : List (Point ℝ)}

theorem keepsDistance_iff {distance : ℝ} (hdistance : 0 < distance)
    (hchain : path.IsChain fun p q => 1 / 10000 < mathDist sqrt p q) :
    OffsetApart distance path ↔ KeepsDistance distance path := by
  constructor
  · intro hapart
    by_cases hreversal : NoReversal path
    · exact Or.inl ((offsetApart_iff_straight hchain hdistance hreversal).mp hapart)
    · exact Or.inr ⟨hreversal, hapart⟩
  · rintro (hstraight | ⟨-, hapart⟩)
    · exact hstraight.offsetApart hchain distance
    · exact hapart

theorem exists_piece_of_mem (hne : pieces path ≠ []) {p : Point ℝ} (hp : p ∈ path) :
    ∃ t ∈ pieces path, p = along t.1 t.2 0 ∨ p = along t.1 t.2 1 := by
  have hlen : 1 < path.length := by
    by_contra hle
    apply hne
    rw [← length_eq_zero_iff, length_pieces]
    omega
  have hzero : ∀ q r : Point ℝ, along q r 0 = q := fun q r => by simp [along]
  have hone : ∀ q r : Point ℝ, along q r 1 = r := fun q r => by simp [along]
  obtain ⟨i, hi, rfl⟩ := mem_iff_getElem.mp hp
  have hvertex : ∀ {k} (hk : k < path.length), path[k] = vertexAt path k := fun {k} hk => by
    rw [← Option.some.injEq, ← getElem?_vertexAt hk, getElem?_eq_getElem hk]
  by_cases hlast : i + 1 < path.length
  · exact ⟨_, mem_pieces_vertexAt hlast, Or.inl (by rw [hzero, hvertex])⟩
  · obtain ⟨k, rfl⟩ : ∃ k, i = k + 1 := ⟨i - 1, by omega⟩
    exact ⟨_, mem_pieces_vertexAt hi, Or.inr (by rw [hone, hvertex])⟩

theorem apart_trace {traces : List (Routing.TraceSegment ℝ)} (htraces : ∀ t ∈ traces, TraceOnGrid t) {distance : ℝ}
    {s : Point ℝ × Point ℝ} (hne : pieces (tracesToVertices sqrt traces) ≠ [])
    (h : ∀ t ∈ pieces (tracesToVertices sqrt traces), Apart distance s t) {t : Routing.TraceSegment ℝ}
    (ht : t ∈ traces) : Apart distance s (t.start, t.stop) := by
  rcases trace_mem_pieces htraces ht with ⟨hpoint, hmem⟩ | hmem
  · obtain ⟨piece, hpiece, hend⟩ := exists_piece_of_mem hne hmem
    intro a ha b _
    have hstay : along (t.start, t.stop).1 (t.start, t.stop).2 b = t.start := by simp [along, ← hpoint]
    rw [hstay]
    rcases hend with hend | hend
    · rw [hend]
      exact h piece hpiece a ha 0 ⟨le_refl 0, zero_le_one⟩
    · rw [hend]
      exact h piece hpiece a ha 1 ⟨zero_le_one, le_refl 1⟩
  · exact h _ hmem

/-- The drawn offset of a path as a partner of traces, for traces that are on the path. -/
theorem partner_iff {distance : ℝ} {pos : List (Routing.TraceSegment ℝ)}
    (hpos : pieces path ≠ [] → ∀ t ∈ pos, ∀ s, (∀ piece ∈ pieces path, Apart distance s piece) → Apart distance s (t.start, t.stop))
    (width : ℝ) (net_id : String) :
    Partner copper distance path pos (drawPath (parallelOffset sqrt path (-distance)) width net_id) ↔
      pieces path = [] ∨
        ((∀ piece ∈ pieces path, ∃ t ∈ pos, (t.start, t.stop) = piece ∧ copper t.layer = copper "F.Cu") ∧
          OffsetApart distance path) := by
  have hlength : (pieces (parallelOffset sqrt path (-distance))).length = (pieces path).length := by
    rw [length_pieces, length_pieces, length_parallelOffset]
  have hlayer : ∀ segment ∈ drawPath (parallelOffset sqrt path (-distance)) width net_id,
      segment.layer = "F.Cu" := by
    intro segment hsegment
    obtain ⟨s, -, rfl⟩ := mem_map.mp hsegment
    rfl
  by_cases hnone : pieces path = []
  · have hnothing : drawPath (parallelOffset sqrt path (-distance)) width net_id = [] := by
      rw [hnone, length_nil, length_eq_zero_iff] at hlength
      unfold drawPath
      rw [hlength, map_nil]
    refine iff_of_true ⟨fun i piece segment hi _ => ?_, fun segment hsegment => ?_⟩ (Or.inl hnone)
    · rw [hnone] at hi
      cases hi
    · rw [hnothing] at hsegment
      cases hsegment
  rw [or_iff_right hnone]
  constructor
  · intro h
    have hcovered : ∀ piece ∈ pieces path, ∃ t ∈ pos, (t.start, t.stop) = piece ∧ copper t.layer = copper "F.Cu" := by
      intro piece hpiece
      obtain ⟨i, hi⟩ := mem_iff_getElem?.mp hpiece
      have hlt : i < (drawPath (parallelOffset sqrt path (-distance)) width net_id).length := by
        rw [drawPath, length_map, hlength]
        exact (List.getElem?_eq_some_iff.mp hi).1
      have hsegment := getElem?_eq_getElem hlt
      obtain ⟨t, ht, hends, hcopper⟩ := h.follows i piece _ hi hsegment
      rw [hlayer _ (mem_of_getElem? hsegment)] at hcopper
      exact ⟨t, ht, hends, hcopper⟩
    refine ⟨hcovered, fun s hs piece hpiece => ?_⟩
    obtain ⟨t, ht, rfl, hcopper⟩ := hcovered piece hpiece
    exact h.spaced _ (mem_map_of_mem hs) t ht hcopper
  · rintro ⟨hcovered, hapart⟩
    refine ⟨fun i piece segment hi hsegment => ?_, fun segment hsegment t ht _ => ?_⟩
    · rw [hlayer segment (mem_of_getElem? hsegment)]
      exact hcovered piece (mem_of_getElem? hi)
    · obtain ⟨s, hs, rfl⟩ := mem_map.mp hsegment
      exact hpos hnone t ht _ (hapart s hs)

theorem validPartner_iff_of_onGrid (hdistance : 0 < router.gap + router.width) {pos_result : PairResult ℝ}
    (htraces : ∀ t ∈ pos_result.traces, TraceOnGrid t ∧ t.net_id = pair.pos_id)
    (hpath : tracesToVertices sqrt pos_result.traces = path) (hmeanders : NoMeanders router path) :
    ValidPartner copper router pair pos_result ↔
      pieces path = [] ∨
        (OnFront copper router pos_result.traces path ∧ KeepsDistance (router.gap + router.width) path) := by
  have hgrid : ∀ t ∈ pos_result.traces, TraceOnGrid t := fun t ht => (htraces t ht).1
  by_cases hempty : pos_result.traces = []
  · have hnil : path = [] := by
      rw [← hpath, hempty]
      rfl
    have hnothing : (routeSinglePair sqrt router pair pos_result).traces = [] := by
      unfold routeSinglePair
      rw [hempty]
    refine iff_of_true ?_ (Or.inl (by rw [hnil]; rfl))
    unfold ValidPartner
    rw [hnothing]
    refine ⟨fun i piece segment _ hsegment => ?_, fun segment hsegment => ?_⟩
    · cases hsegment
    · cases hsegment
  obtain ⟨hpos, hneg⟩ := hmeanders
  have hchain := isChain_tracesToVertices pos_result.traces
  have hapart : pieces (tracesToVertices sqrt pos_result.traces) ≠ [] → ∀ t ∈ pos_result.traces,
      ∀ s, (∀ piece ∈ pieces (tracesToVertices sqrt pos_result.traces),
        Apart (router.gap + router.width) s piece) → Apart (router.gap + router.width) s (t.start, t.stop) :=
    fun hne t ht s h => apart_trace hgrid hne h ht
  unfold ValidPartner
  rw [traces_routeSinglePair hempty]
  simp only [hpath] at hchain hapart ⊢
  rw [← keepsDistance_iff hdistance hchain]
  unfold matched at hpos hneg
  unfold OnFront matched
  rw [hneg]
  cases hredrawn : (matchLengths sqrt router path (negVertices sqrt router path)).1 with
  | none =>
    -- the positive traces are those of the grid
    have hnets : ∀ t ∈ pos_result.traces, t.net_id = pair.pos_id := fun t ht => (htraces t ht).2
    rw [Option.elim_none, tracesOf_pos_append hnets, tracesOf_neg_append hnets,
      or_iff_right (not_not_intro rfl)]
    exact partner_iff hapart _ _
  | some vertices =>
    -- the positive traces are drawn again, along the path
    rw [hredrawn, Option.getD_some] at hpos
    subst hpos
    have hnets : ∀ t ∈ drawPath vertices router.width pair.pos_id, t.net_id = pair.pos_id := fun t ht =>
      net_id_of_mem_drawPath ht
    rw [Option.elim_some, tracesOf_pos_append hnets, tracesOf_neg_append hnets]
    have hdrawn : pieces vertices ≠ [] → ∀ t ∈ drawPath vertices router.width pair.pos_id,
        ∀ s, (∀ piece ∈ pieces vertices, Apart (router.gap + router.width) s piece) →
          Apart (router.gap + router.width) s (t.start, t.stop) := by
      intro _ t ht s h
      obtain ⟨piece, hpiece, rfl⟩ := mem_map.mp ht
      exact h piece hpiece
    refine (partner_iff hdrawn _ _).trans (or_congr_right (and_congr_left fun _ => ?_))
    refine iff_of_true (fun piece hpiece => ?_) (Or.inl (Option.some_ne_none _))
    exact ⟨_, mem_map_of_mem hpiece, rfl, rfl⟩

end Partners

/-! ## Two pairs -/

def twoLayers (layer : String) : String :=
  if layer = "layer_0" then "F.Cu" else if layer = "layer_1" then "B.Cu" else layer

noncomputable def tolerantRouter : DiffPairRouter ℝ := { defaultRouter with max_length_mismatch := 10 }

theorem negVertices_tolerantRouter (path : List (Point ℝ)) :
    negVertices sqrt tolerantRouter path = negVertices sqrt defaultRouter path := rfl

/-- Ten millimetres to the right. -/
def straightOn (layer : ℤ) : List (List GridPos) := [[⟨0, 0, layer⟩, ⟨20, 0, layer⟩]]

theorem gridTraces_straightOn (layer : ℤ) :
    gridTraces (1 / 2) plainPair (1 / 5) (straightOn layer) =
      [plainTrace ("layer_" ++ toString layer) ((0, 0) : Point ℝ) (10, 0) (1 / 5) "n1"] := by
  have horigin : placeOf (1 / 2) ⟨0, 0, 0⟩ = (0, 0) := by with_unfolding_all decide
  have hend : placeOf (1 / 2) ⟨20, 0, 0⟩ = (10, 0) := by with_unfolding_all decide
  show [plainTrace ("layer_" ++ toString layer) (castPoint (placeOf (1 / 2) ⟨0, 0, 0⟩))
    (castPoint (placeOf (1 / 2) ⟨20, 0, 0⟩)) ((1 / 5 : ℚ) : ℝ) "n1"] = _
  rw [horigin, hend]
  simp [castPoint]

theorem tracesToVertices_straightOn (layer : ℤ) :
    tracesToVertices sqrt (gridTraces (1 / 2) plainPair (1 / 5) (straightOn layer)) = [(0, 0), (10, 0)] := by
  have hright : mathDist sqrt (0, 0) (10, 0) = 10 := by norm_num [mathDist_axis]
  rw [gridTraces_straightOn]
  unfold tracesToVertices dedupeVertices
  simp only [traceVertices, plainTrace, mathDist_self, thin]
  rw [if_neg (by norm_num), append_nil, thinFrom, hright, if_pos (by norm_num), thinFrom]

theorem matched_of_le {router : DiffPairRouter ℝ} {path : List (Point ℝ)}
    (h : |pathLength sqrt path - pathLength sqrt (negVertices sqrt router path)| ≤
      router.max_length_mismatch) : matched router path = (none, negVertices sqrt router path) := by
  unfold matched matchLengths
  dsimp only
  rw [if_neg (not_lt.mpr h)]

theorem noMeanders_of_matched {router : DiffPairRouter ℝ} {path : List (Point ℝ)}
    (h : matched router path = (none, negVertices sqrt router path)) : NoMeanders router path := by
  rw [NoMeanders, h]
  exact ⟨rfl, rfl⟩

theorem matched_corner : matched tolerantRouter [(0, 0), (10, 0), (10, 10)] =
    (none, negVertices sqrt tolerantRouter [(0, 0), (10, 0), (10, 10)]) := by
  obtain ⟨hpos, hlow, hhigh⟩ := pathLength_negVertices_oneCorner
  apply matched_of_le
  rw [negVertices_tolerantRouter, hpos, abs_of_neg (by linarith)]
  show _ ≤ (10 : ℝ)
  linarith

theorem matched_right : matched tolerantRouter [(0, 0), (10, 0)] =
    (none, negVertices sqrt tolerantRouter [(0, 0), (10, 0)]) := by
  have hten : sqrt (10 * 10 + 0 * 0) = 10 := by
    rw [mul_zero, add_zero, sqrt_mul_self (by norm_num)]
  have hoffset : -(tolerantRouter.gap + tolerantRouter.width) = -(2 / 5) := by
    norm_num [tolerantRouter, defaultRouter]
  have hneg : negVertices sqrt tolerantRouter [(0, 0), (10, 0)] = [(0, -(2 / 5)), (10, -(2 / 5))] := by
    have hstart : vertexDirection sqrt [((0, 0) : Point ℝ), (10, 0)] 0 = (10, 0) := by
      norm_num [vertexDirection, vertexAt, Plane.vec]
    have hend : vertexDirection sqrt [((0, 0) : Point ℝ), (10, 0)] 1 = (10, 0) := by
      norm_num [vertexDirection, vertexAt, Plane.vec]
    unfold negVertices parallelOffset
    rw [hoffset, if_neg (by simp)]
    show [offsetAt sqrt _ _ 0, offsetAt sqrt _ _ 1] = _
    unfold offsetAt offsetVertex
    dsimp only
    rw [hstart, hend]
    dsimp only
    rw [hten, if_neg (by norm_num), if_neg (by norm_num)]
    simp [vertexAt]
  have hright : mathDist sqrt (0, 0) (10, 0) = 10 := by norm_num [mathDist_axis]
  have hbelow : mathDist sqrt (0, -(2 / 5)) (10, -(2 / 5)) = 10 := by
    unfold mathDist
    rw [sub_self, zero_pow two_ne_zero, add_zero, sqrt_sq_eq_abs]
    norm_num
  apply matched_of_le
  rw [hneg]
  unfold pathLength
  simp only [len_cons_cons, len_singleton, hright, hbelow, sub_self, abs_zero]
  norm_num [tolerantRouter]

/-- At a corner the negative trace passes the end of the first segment at less than the distance. -/
theorem not_offsetApart_corner : ¬ OffsetApart (2 / 5) [((0, 0) : Point ℝ), (10, 0), (10, 10)] := by
  intro h
  have hneg := negVertices_oneCorner
  have hoffset : -(defaultRouter.gap + defaultRouter.width) = -(2 / 5) := by norm_num [defaultRouter]
  rw [negVertices, hoffset] at hneg
  have hroot : (7 / 5 : ℝ) ≤ sqrt 2 := le_sqrt_of_sq_le (by norm_num)
  have hshift : 0 < 2 / 5 / sqrt 2 := by positivity
  have hshift' : 2 / 5 / sqrt 2 ≤ (2 / 7 : ℝ) := by
    rw [div_le_iff₀ (by linarith)]
    linarith
  unfold OffsetApart at h
  rw [hneg] at h
  generalize 2 / 5 / sqrt 2 = shift at h hshift hshift'
  -- below the end of the first segment
  have hpart : 10 / (10 + shift) * (10 + shift) = 10 := div_mul_cancel₀ 10 (by linarith)
  have hpart' : 10 / (10 + shift) ≤ 1 := (div_le_one (by linarith)).mpr (by linarith)
  have hnear := h ((0, -(2 / 5)), (10 + shift, -shift)) (by simp [pieces]) ((0, 0), (10, 0)) (by simp [pieces])
    (10 / (10 + shift)) ⟨by positivity, hpart'⟩ 1 ⟨zero_le_one, le_refl 1⟩
  have hlow : 35 / 36 ≤ 10 / (10 + shift) := by
    rw [le_div_iff₀ (by linarith)]
    linarith
  generalize 10 / (10 + shift) = part at hpart hpart' hnear hlow
  have hend : along ((0, 0) : Point ℝ) (10, 0) 1 = (10, 0) := by simp [along]
  have hbelow : along ((0, -(2 / 5)) : Point ℝ) (10 + shift, -shift) part =
      (10, -(2 / 5) + part * (2 / 5 - shift)) := by
    unfold along
    ext
    · show 0 + part * (10 + shift - 0) = 10
      linarith
    · show -(2 / 5) + part * (-shift - -(2 / 5)) = -(2 / 5) + part * (2 / 5 - shift)
      ring
  dsimp only at hnear
  rw [hend, hbelow, mathDist_upright, sub_zero, abs_of_nonpos (by nlinarith)] at hnear
  nlinarith

end ZapTrace.DiffPair
