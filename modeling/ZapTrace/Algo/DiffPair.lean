import Mathlib.Algebra.Order.Floor.Ring
import Mathlib.Data.Rat.Cast.Defs
import ZapTrace.Algo.Fillet
import ZapTrace.Algo.GridVias
import ZapTrace.Library.Polyline

/-!
# Differential pairs

The positive net of a pair is routed on the grid, and its traces are read as one path. The negative trace is that path
at an offset, drawn on `F.Cu`. When the lengths of the two paths differ too much, the shorter one gets teeth on its
longest segment. A path is cleaned of points that are within a tenth of a micrometre of the last point kept.

Numbers are exact, and the square root is a parameter.
-/

namespace ZapTrace.DiffPair

open Plane (Point)
open scoped Plane
open Polyline (pieces)
open Routing.Fillet (plainTrace)

scoped instance atLeastTwo_1000000000 : Nat.AtLeastTwo 1000000000 := ⟨by decide⟩

structure PairNets where
  pos_id : String
  neg_id : String
  distinct : pos_id ≠ neg_id

structure DiffPairRouter (K : Type) where
  gap : K
  width : K
  max_length_mismatch : K
  meander_amplitude : K

structure PairResult (K : Type) where
  traces : List (Routing.TraceSegment K) := []
  vias : List Via := []
  layers_used : List String := []
  net_count : ℕ := 0

variable {K : Type} [Field K] [LinearOrder K] [FloorRing K] (sqrt : K → K)

/-- `math.dist` -/
def mathDist (p q : Point K) : K := sqrt ((p.1 - q.1) ^ 2 + (p.2 - q.2) ^ 2)

def pathLength (vertices : List (Point K)) : K := Polyline.len (mathDist sqrt) vertices

def dedupeVertices (vertices : List (Point K)) : List (Point K) :=
  Polyline.thin (mathDist sqrt) (1 / 10000) vertices

/-- The loop of `_traces_to_vertices` after a vertex. -/
def traceVertices (last : Point K) : List (Routing.TraceSegment K) → List (Point K)
  | [] => []
  | t :: traces =>
    (if 1 / 10000 < mathDist sqrt last t.start then [t.start, t.stop] else [t.stop]) ++ traceVertices t.stop traces

def tracesToVertices (traces : List (Routing.TraceSegment K)) : List (Point K) :=
  match traces with
  | [] => []
  | t :: _ => dedupeVertices sqrt (t.start :: traceVertices sqrt t.start traces)

/-! ## Parallel offset -/

def unitVector (v : Point K) : Point K :=
  let length := sqrt (v.1 * v.1 + v.2 * v.2)
  if length ≤ 1 / 1000000000 then (0, 0) else (v.1 / length, v.2 / length)

/-- `vertices[index]` -/
def vertexAt (vertices : List (Point K)) (index : ℕ) : Point K := vertices.getD index (0, 0)

def vertexDirection (vertices : List (Point K)) (index : ℕ) : Point K :=
  if index = 0 then Plane.vec (vertexAt vertices 0) (vertexAt vertices 1)
  else if index = vertices.length - 1 then Plane.vec (vertexAt vertices (index - 1)) (vertexAt vertices index)
  else
    let incoming := unitVector sqrt (Plane.vec (vertexAt vertices (index - 1)) (vertexAt vertices index))
    let outgoing := unitVector sqrt (Plane.vec (vertexAt vertices index) (vertexAt vertices (index + 1)))
    (incoming.1 + outgoing.1, incoming.2 + outgoing.2)

def offsetVertex (vertex direction : Point K) (offset : K) : Option (Point K) :=
  let length := sqrt (direction.1 * direction.1 + direction.2 * direction.2)
  if length < 1 / 1000000000 then none
  else some (vertex.1 - direction.2 / length * offset, vertex.2 + direction.1 / length * offset)

/-- The vertex that `_parallel_offset` appends; without a direction it repeats the one before it. -/
def offsetAt (vertices : List (Point K)) (offset : K) : ℕ → Point K
  | 0 => (offsetVertex sqrt (vertexAt vertices 0) (vertexDirection sqrt vertices 0) offset).getD (vertexAt vertices 0)
  | index + 1 =>
    (offsetVertex sqrt (vertexAt vertices (index + 1)) (vertexDirection sqrt vertices (index + 1)) offset).getD
      (offsetAt vertices offset index)

def parallelOffset (vertices : List (Point K)) (offset : K) : List (Point K) :=
  if vertices.length ≤ 1 then vertices else (List.range vertices.length).map (offsetAt sqrt vertices offset)

/-! ## Meanders -/

/-- The longest piece that is long enough, the first of several, with its index. -/
def bestSegment (vertices : List (Point K)) (min_segment_len : K) : Option (ℕ × K) :=
  (pieces vertices).zipIdx.foldl (fun best item =>
    let seg_len := mathDist sqrt item.1.1 item.1.2
    if min_segment_len ≤ seg_len ∧ (best.map Prod.snd).getD 0 < seg_len then some (item.2, seg_len) else best) none

/-- The four points of a tooth on a segment that starts at `p0` in the direction `u`. -/
def meanderTooth (p0 u : Point K) (amplitude tooth_spacing : K) (tooth : ℕ) : List (Point K) :=
  let n : Point K := (-u.2, u.1)
  let t_start := tooth * tooth_spacing
  let t_mid := t_start + tooth_spacing * (1 / 2)
  let t_end := (tooth + 1) * tooth_spacing
  [(p0.1 + u.1 * (t_start + tooth_spacing * (1 / 4)), p0.2 + u.2 * (t_start + tooth_spacing * (1 / 4))),
    (p0.1 + u.1 * t_mid + n.1 * amplitude, p0.2 + u.2 * t_mid + n.2 * amplitude),
    (p0.1 + u.1 * t_mid - n.1 * amplitude, p0.2 + u.2 * t_mid - n.2 * amplitude),
    (p0.1 + u.1 * (t_end - tooth_spacing * (1 / 4)), p0.2 + u.2 * (t_end - tooth_spacing * (1 / 4)))]

/-- The number of teeth, and the length that they take on a segment. -/
def meanderSize (needed amplitude best_len : K) : ℤ × K :=
  let num_teeth := max 1 ⌈needed / (4 * amplitude)⌉
  let meander_len := min (best_len * (4 / 5)) (num_teeth * (amplitude * 2))
  (max 1 ⌊meander_len / (amplitude * 2)⌋, meander_len)

/-- `_add_meanders`; the division of a positive length by a positive one is cut at its floor. -/
def addMeanders (vertices : List (Point K)) (target_length amplitude min_segment_len : K) : List (Point K) :=
  let needed := target_length - pathLength sqrt vertices
  if needed ≤ 0 then vertices
  else
    match bestSegment sqrt vertices min_segment_len with
    | none => vertices
    | some (best_idx, best_len) =>
      let (num_teeth, meander_len) := meanderSize needed amplitude best_len
      let p0 := vertexAt vertices best_idx
      let p1 := vertexAt vertices (best_idx + 1)
      let dx := p1.1 - p0.1
      let dy := p1.2 - p0.2
      let seg_len := sqrt (dx * dx + dy * dy)
      if seg_len < 1 / 1000000000 then vertices
      else
        let tooth_spacing := meander_len / num_teeth
        let teeth := (List.range num_teeth.toNat).flatMap
          (meanderTooth p0 (dx / seg_len, dy / seg_len) amplitude tooth_spacing)
        dedupeVertices sqrt
          (vertices.take best_idx ++ (p0 :: (teeth ++ [p1])) ++ vertices.drop (best_idx + 1))

/-! ## One pair -/

def drawPath (vertices : List (Point K)) (width : K) (net_id : String) : List (Routing.TraceSegment K) :=
  (pieces vertices).map fun piece => plainTrace "F.Cu" piece.1 piece.2 width net_id

variable (router : DiffPairRouter K)

/-- Length matching: the positive path, where it is drawn again, and the negative path. -/
def matchLengths (pos_vertices neg_vertices : List (Point K)) : Option (List (Point K)) × List (Point K) :=
  let pos_len := pathLength sqrt pos_vertices
  let neg_len := pathLength sqrt neg_vertices
  if router.max_length_mismatch < |pos_len - neg_len| then
    if pos_len < neg_len then
      (some (addMeanders sqrt pos_vertices neg_len router.meander_amplitude (router.meander_amplitude * 3)),
        neg_vertices)
    else
      (none, addMeanders sqrt neg_vertices pos_len router.meander_amplitude (router.meander_amplitude * 3))
  else (none, neg_vertices)

def negVertices (pos_vertices : List (Point K)) : List (Point K) :=
  parallelOffset sqrt pos_vertices (-(router.gap + router.width))

/-- `_route_single_pair`, from what the grid router returns for the positive net. -/
def routeSinglePair (pair : PairNets) (pos_result : PairResult K) : PairResult K :=
  match pos_result.traces with
  | [] => {}
  | _ :: _ =>
    let pos_vertices := tracesToVertices sqrt pos_result.traces
    let matched := matchLengths sqrt router pos_vertices (negVertices sqrt router pos_vertices)
    let pos_result : PairResult K :=
      match matched.1 with
      | some vertices => { traces := drawPath vertices router.width pair.pos_id }
      | none => pos_result
    { traces := pos_result.traces ++ drawPath matched.2 router.width pair.neg_id
      vias := pos_result.vias
      layers_used := pos_result.layers_used.insertionSort (· ≤ ·)
      net_count := 2 }

/-! ## What the grid router returns -/

def castPoint (p : ℚ × ℚ) : Point K := (p.1, p.2)

/-- The result of a plan for the positive net. -/
def gridResult (resolution via_pad via_hole : ℚ) (pair : PairNets) (width_mm : ℚ)
    (edge_paths : List (List GridPos)) : PairResult K :=
  let output := gridOutput resolution via_pad via_hole [⟨true, true, pair.pos_id, width_mm, edge_paths⟩]
  { traces := output.traces.map fun t => plainTrace t.layer (castPoint t.start) (castPoint t.stop) t.width t.net_id
    vias := output.vias
    layers_used := output.layers_used }

end ZapTrace.DiffPair
