import Mathlib.Analysis.CStarAlgebra.Classes
import ZapTrace.Algo.DiffPair

/-!
# Paths of differential pairs

The grid router rounds coordinates to a thousandth of a millimetre, so two of its points are equal or at least a
micrometre apart, and cleaning a path of its points drops repeated points only. Every trace is then a point or a piece
of the path, and the path is at least as long as the traces: it also runs from trace to trace.

## Main results

* `mathDist_triangle`: distances
* `isChain_tracesToVertices`, `totalLength_le`, `trace_mem_pieces`: the path of traces on the grid
* `isBest_bestSegment`: the longest piece
-/

namespace ZapTrace.DiffPair

open List hiding getElem?_eq_some_iff
open Polyline Real

open Plane (Point)
open Polyline (pieces)
open Routing.Fillet (plainTrace)
open scoped Plane

/-! ## Distances -/

theorem mathDist_eq_dist (p q : Point ℝ) :
    mathDist sqrt p q = dist (⟨p.1, p.2⟩ : ℂ) ⟨q.1, q.2⟩ := by
  rw [Complex.dist_eq_re_im]
  rfl

@[simp] theorem mathDist_self (p : Point ℝ) : mathDist sqrt p p = 0 := by
  rw [mathDist_eq_dist, dist_self]

theorem mathDist_nonneg (p q : Point ℝ) : 0 ≤ mathDist sqrt p q := sqrt_nonneg _

theorem mathDist_comm (p q : Point ℝ) : mathDist sqrt p q = mathDist sqrt q p := by
  rw [mathDist_eq_dist, mathDist_eq_dist, dist_comm]

theorem mathDist_triangle (p q r : Point ℝ) :
    mathDist sqrt p r ≤ mathDist sqrt p q + mathDist sqrt q r := by
  simp only [mathDist_eq_dist]
  exact dist_triangle _ _ _

/-! ## Points of the grid -/

/-- The coordinates are thousandths. -/
def OnGrid (p : Point ℝ) : Prop := ∃ m n : ℤ, p = ((m : ℝ) / 1000, (n : ℝ) / 1000)

theorem OnGrid.le_mathDist {p q : Point ℝ} (hp : OnGrid p) (hq : OnGrid q) (hne : p ≠ q) :
    1 / 1000 ≤ mathDist sqrt p q := by
  obtain ⟨m, n, rfl⟩ := hp
  obtain ⟨m', n', rfl⟩ := hq
  have hint : 1 ≤ (m - m') ^ 2 + (n - n') ^ 2 := by
    by_contra hlt
    have hm : (m - m') ^ 2 = 0 := by nlinarith [sq_nonneg (m - m'), sq_nonneg (n - n')]
    have hn : (n - n') ^ 2 = 0 := by nlinarith [sq_nonneg (m - m'), sq_nonneg (n - n')]
    rw [pow_eq_zero_iff two_ne_zero, sub_eq_zero] at hm hn
    exact hne (by rw [hm, hn])
  have hreal : (1 : ℝ) ≤ (m - m') ^ 2 + (n - n') ^ 2 := by exact_mod_cast hint
  apply le_sqrt_of_sq_le
  show (1 / 1000 : ℝ) ^ 2 ≤ ((m : ℝ) / 1000 - (m' : ℝ) / 1000) ^ 2 + ((n : ℝ) / 1000 - (n' : ℝ) / 1000) ^ 2
  nlinarith [hreal]

theorem OnGrid.eq_of_not_lt {p q : Point ℝ} (hp : OnGrid p) (hq : OnGrid q)
    (h : ¬ 1 / 10000 < mathDist sqrt p q) : p = q := by
  by_contra hne
  have hle := hp.le_mathDist hq hne
  norm_num at h hle
  linarith

def TraceOnGrid (t : Routing.TraceSegment ℝ) : Prop := OnGrid t.start ∧ OnGrid t.stop

noncomputable def totalLength (traces : List (Routing.TraceSegment ℝ)) : ℝ :=
  (traces.map fun t => mathDist sqrt t.start t.stop).sum

/-! ## The path of traces -/

theorem isChain_tracesToVertices (traces : List (Routing.TraceSegment ℝ)) :
    (tracesToVertices sqrt traces).IsChain fun p q => 1 / 10000 < mathDist sqrt p q := by
  cases traces with
  | nil => exact List.IsChain.nil
  | cons t traces => exact isChain_thinFrom _ _

section Traces

variable {traces : List (Routing.TraceSegment ℝ)}

theorem onGrid_of_mem_traceVertices (htraces : ∀ t ∈ traces, TraceOnGrid t) {last p : Point ℝ}
    (h : p ∈ traceVertices sqrt last traces) : OnGrid p := by
  induction traces generalizing last with
  | nil => cases h
  | cons t traces ih =>
    obtain ⟨ht, htraces⟩ := forall_mem_cons.mp htraces
    rw [traceVertices] at h
    rcases mem_append.mp h with h | h
    · split at h
      · rcases mem_cons.mp h with rfl | h
        · exact ht.1
        · rw [mem_singleton.mp h]
          exact ht.2
      · rw [mem_singleton.mp h]
        exact ht.2
    · exact ih htraces h

variable {t : Routing.TraceSegment ℝ} {last : Point ℝ}

theorem traceVertices_cons (hlast : OnGrid last) (ht : TraceOnGrid t) (traces : List (Routing.TraceSegment ℝ)) :
    (last ≠ t.start ∧ last :: traceVertices sqrt last (t :: traces) =
        last :: t.start :: t.stop :: traceVertices sqrt t.stop traces) ∨
      last = t.start ∧ last :: traceVertices sqrt last (t :: traces) =
        t.start :: t.stop :: traceVertices sqrt t.stop traces := by
  rw [traceVertices]
  split
  next hfar =>
    refine Or.inl ⟨fun heq => ?_, rfl⟩
    rw [heq, mathDist_self] at hfar
    norm_num at hfar
  next hnear =>
    obtain rfl := hlast.eq_of_not_lt ht.1 hnear
    exact Or.inr ⟨rfl, rfl⟩

theorem totalLength_le_len (htraces : ∀ t ∈ traces, TraceOnGrid t) (hlast : OnGrid last) :
    totalLength traces ≤ len (mathDist sqrt) (last :: traceVertices sqrt last traces) := by
  induction traces generalizing last with
  | nil => exact le_refl _
  | cons t traces ih =>
    obtain ⟨ht, htraces⟩ := forall_mem_cons.mp htraces
    have hrest := ih htraces ht.2
    have hcons : totalLength (t :: traces) = mathDist sqrt t.start t.stop + totalLength traces := by
      rw [totalLength, map_cons, sum_cons, totalLength]
    rw [hcons]
    rcases traceVertices_cons hlast ht traces with ⟨-, hvertices⟩ | ⟨-, hvertices⟩
    · rw [hvertices, len_cons_cons, len_cons_cons]
      have hjump := mathDist_nonneg last t.start
      linarith
    · rw [hvertices, len_cons_cons]
      linarith

theorem mem_pieces_traceVertices (htraces : ∀ t ∈ traces, TraceOnGrid t) (hlast : OnGrid last) (ht : t ∈ traces) :
    (t.start, t.stop) ∈ pieces (last :: traceVertices sqrt last traces) := by
  induction traces generalizing last with
  | nil => cases ht
  | cons t' traces ih =>
    obtain ⟨ht', htraces⟩ := forall_mem_cons.mp htraces
    have hmem : (t.start, t.stop) ∈ pieces (t'.start :: t'.stop :: traceVertices sqrt t'.stop traces) := by
      rw [pieces]
      rcases mem_cons.mp ht with rfl | ht
      · exact mem_cons_self
      · exact mem_cons_of_mem _ (ih htraces ht'.2 ht)
    rcases traceVertices_cons hlast ht' traces with ⟨-, hvertices⟩ | ⟨-, hvertices⟩
    · rw [hvertices, pieces]
      exact mem_cons_of_mem _ hmem
    · rw [hvertices]
      exact hmem

theorem raw_exact (htraces : ∀ t ∈ traces, TraceOnGrid t) (hlast : OnGrid last) :
    ∀ p ∈ last :: traceVertices sqrt last traces, ∀ q ∈ last :: traceVertices sqrt last traces,
      ¬ 1 / 10000 < mathDist sqrt p q → p = q := by
  have hgrid : ∀ p ∈ last :: traceVertices sqrt last traces, OnGrid p := by
    intro p hp
    rcases mem_cons.mp hp with rfl | hp
    · exact hlast
    · exact onGrid_of_mem_traceVertices htraces hp
  exact fun p hp q hq h => (hgrid p hp).eq_of_not_lt (hgrid q hq) h

theorem onGrid_of_mem_tracesToVertices (htraces : ∀ t ∈ traces, TraceOnGrid t) {p : Point ℝ}
    (h : p ∈ tracesToVertices sqrt traces) : OnGrid p := by
  cases traces with
  | nil => cases h
  | cons t traces =>
    rcases mem_cons.mp h with rfl | h
    · exact (htraces t mem_cons_self).1
    · exact onGrid_of_mem_traceVertices htraces (mem_of_mem_thinFrom h)

theorem totalLength_le (htraces : ∀ t ∈ traces, TraceOnGrid t) :
    totalLength traces ≤ pathLength sqrt (tracesToVertices sqrt traces) := by
  cases traces with
  | nil => exact le_refl _
  | cons t traces =>
    have hstart := (htraces t mem_cons_self).1
    have hthin := len_thin_of_exact mathDist_self (raw_exact htraces hstart)
    exact (totalLength_le_len htraces hstart).trans_eq hthin.symm

theorem trace_mem_pieces (htraces : ∀ t ∈ traces, TraceOnGrid t) (ht : t ∈ traces) :
    (t.start = t.stop ∧ t.start ∈ tracesToVertices sqrt traces) ∨
      (t.start, t.stop) ∈ pieces (tracesToVertices sqrt traces) := by
  cases traces with
  | nil => cases ht
  | cons t' traces =>
    have hstart := (htraces t' mem_cons_self).1
    have hpiece := mem_pieces_traceVertices htraces hstart ht
    by_cases hpoint : t.start = t.stop
    · exact Or.inl ⟨hpoint, mem_thin_of_exact (raw_exact htraces hstart)
        (mem_of_mem_pieces hpiece).1⟩
    · exact Or.inr (mem_pieces_thin_of_exact (raw_exact htraces hstart) hpiece hpoint)

end Traces

/-! ## What the grid router returns -/

section Grid

variable {resolution via_pad via_hole : ℚ}

/-- The trace of two cells that follow each other on an edge path. -/
def cellTrace (resolution : ℚ) (plan : GridNetPlan) (seg : GridPos × GridPos) : TraceSegment :=
  ⟨"layer_" ++ toString seg.1.layer, placeOf resolution seg.1, placeOf resolution seg.2, plan.width_mm, plan.net_id⟩

theorem traces_foldl_appendSegmentOutput (plan : GridNetPlan) (state : GridOutput)
    (segs : List (GridPos × GridPos)) :
    (segs.foldl (appendSegmentOutput resolution via_pad via_hole plan) state).traces =
      state.traces ++ segs.map (cellTrace resolution plan) := by
  induction segs generalizing state with
  | nil => rw [foldl_nil, map_nil, append_nil]
  | cons seg segs ih =>
    rw [foldl_cons, ih, map_cons]
    show state.traces ++ [cellTrace resolution plan seg] ++ _ = _
    rw [append_assoc, singleton_append]

theorem traces_gridOutput_singleton (plan : GridNetPlan) :
    (gridOutput resolution via_pad via_hole [plan]).traces =
      plan.edge_paths.flatMap fun smooth => (segments smooth).map (cellTrace resolution plan) := by
  have hstate : ∀ (paths : List (List GridPos)) (state : GridOutput),
      (paths.foldl (fun state smooth =>
        (segments smooth).foldl (appendSegmentOutput resolution via_pad via_hole plan) state) state).traces =
        state.traces ++ paths.flatMap fun smooth => (segments smooth).map (cellTrace resolution plan) := by
    intro paths
    induction paths with
    | nil => exact fun state => (append_nil state.traces).symm
    | cons smooth paths ih =>
      intro state
      rw [foldl_cons, ih, traces_foldl_appendSegmentOutput, flatMap_cons, append_assoc]
  exact hstate plan.edge_paths {}

theorem onGrid_castPoint_placeOf (pos : GridPos) : OnGrid (castPoint (placeOf resolution pos)) := by
  refine ⟨pyRound (pos.x * resolution * 1000), pyRound (pos.y * resolution * 1000), ?_⟩
  simp [castPoint, placeOf, round3]

/-- The traces of the positive net. -/
def gridTraces {K : Type} [Field K] (resolution : ℚ) (pair : PairNets) (width_mm : ℚ)
    (edge_paths : List (List GridPos)) : List (Routing.TraceSegment K) :=
  edge_paths.flatMap fun smooth => (segments smooth).map fun seg =>
    plainTrace ("layer_" ++ toString seg.1.layer) (castPoint (placeOf resolution seg.1))
      (castPoint (placeOf resolution seg.2)) width_mm pair.pos_id

theorem traces_gridResult (pair : PairNets) (width_mm : ℚ) (edge_paths : List (List GridPos)) :
    (gridResult resolution via_pad via_hole pair width_mm edge_paths : PairResult ℝ).traces =
      gridTraces resolution pair width_mm edge_paths := by
  show map _ (gridOutput resolution via_pad via_hole [_]).traces = _
  rw [traces_gridOutput_singleton, map_flatMap]
  simp only [map_map]
  rfl

theorem traceOnGrid_gridTraces {pair : PairNets} {width_mm : ℚ} {edge_paths : List (List GridPos)}
    {t : Routing.TraceSegment ℝ} (ht : t ∈ gridTraces resolution pair width_mm edge_paths) :
    TraceOnGrid t ∧ t.net_id = pair.pos_id := by
  obtain ⟨smooth, -, ht⟩ := mem_flatMap.mp ht
  obtain ⟨seg, -, rfl⟩ := mem_map.mp ht
  exact ⟨⟨onGrid_castPoint_placeOf seg.1, onGrid_castPoint_placeOf seg.2⟩, rfl⟩

end Grid

/-! ## The longest piece -/

/-- No piece is long enough, or the piece with the index is a longest one and long enough. -/
def IsBest (segments : List (Point ℝ × Point ℝ)) (min_segment_len : ℝ) : Option (ℕ × ℝ) → Prop
  | none => ∀ s ∈ segments, mathDist sqrt s.1 s.2 < min_segment_len
  | some (i, best_len) =>
    (∃ s, segments[i]? = some s ∧ mathDist sqrt s.1 s.2 = best_len) ∧ min_segment_len ≤ best_len ∧
      ∀ s ∈ segments, mathDist sqrt s.1 s.2 ≤ best_len

theorem isBest_bestSegment (vertices : List (Point ℝ)) {min_segment_len : ℝ} (hmin : 0 < min_segment_len) :
    IsBest (pieces vertices) min_segment_len (bestSegment sqrt vertices min_segment_len) := by
  unfold bestSegment
  induction pieces vertices using reverseRecOn with
  | nil => exact fun _ hs => absurd hs not_mem_nil
  | append_singleton segments s ih =>
    rw [zipIdx_append, foldl_append, zipIdx_singleton, foldl_cons, foldl_nil]
    generalize foldl _ none segments.zipIdx = best at ih ⊢
    dsimp only
    rw [zero_add]
    split
    next hs =>
      -- the last piece is longer than the best one before it
      refine ⟨⟨s, getElem?_concat_length .., rfl⟩, hs.1, fun s' hs' => ?_⟩
      rcases mem_append.mp hs' with hs' | hs'
      · cases best with
        | none => exact ((ih s' hs').trans_le hs.1).le
        | some best => exact (ih.2.2 s' hs').trans hs.2.le
      · rw [mem_singleton.mp hs']
    next hs =>
      cases best with
      | none =>
        intro s' hs'
        rcases mem_append.mp hs' with hs' | hs'
        · exact ih s' hs'
        · rw [mem_singleton.mp hs']
          by_contra hle
          exact hs ⟨not_lt.mp hle, hmin.trans_le (not_lt.mp hle)⟩
      | some best =>
        obtain ⟨⟨s₀, hget, hlen⟩, hbest, hall⟩ := ih
        refine ⟨⟨s₀, ?_, hlen⟩, hbest, fun s' hs' => ?_⟩
        · rw [getElem?_append_left (List.getElem?_eq_some_iff.mp hget).1]
          exact hget
        · rcases mem_append.mp hs' with hs' | hs'
          · exact hall s' hs'
          · rw [mem_singleton.mp hs']
            by_contra hlt
            exact hs ⟨hbest.trans (not_le.mp hlt).le, not_le.mp hlt⟩

end ZapTrace.DiffPair
