import ZapTrace.Core.Routing
import ZapTrace.Library.Walk

/-!
# Fillets

Corners of traces become arcs. The traces of a net are collected in chains of traces that share ends, each
chain is put in order from head to tail, and along a chain two traces with a corner between them are
replaced by what is left of each, and an arc of short traces. Functions of real numbers and roundings are
parameters; a division by zero is an error.
-/

namespace ZapTrace.Routing.Fillet

open Plane

/-- The functions of Python's numbers that are not arithmetic. -/
structure RealFunctions (K : Type) where
  round3 : K → K
  round6 : K → K
  sqrt : K → K
  acos : K → K
  tan : K → K
  sin : K → K
  cos : K → K
  atan2 : K → K → K
  mod : K → K → K
  pi : K

structure FilletParams (K : Type) where
  default_radius : K
  segments_per_arc : ℤ
  min_radius : K
  max_radius : Option K
  radius_scale : K
  min_angle_deg : K

inductive ArithmeticError
  | zeroDivision
  deriving DecidableEq

variable {K : Type} [Field K] [LinearOrder K]

/-- The parameters of a call that names none. -/
def FilletParams.defaults : FilletParams K where
  default_radius := 1 / 2
  segments_per_arc := 8
  min_radius := 5 / 100
  max_radius := none
  radius_scale := 5 / 2
  min_angle_deg := 15

variable (real : RealFunctions K)

def RealFunctions.radians (degrees : K) : K := degrees * real.pi / 180

/-- A trace without a via. -/
def plainTrace (layer : String) (start stop : Point K) (width : K) (net_id : String) : TraceSegment K where
  layer := layer
  start := start
  stop := stop
  width := width
  net_id := net_id
  via_diameter := 45 / 100
  via_hole := 2 / 10

/-! ## Chains -/

/-- A rounded point on a layer. -/
abbrev EndpointKey (K : Type) := K × K × String

def endpointKey (point : Point K) (layer : String) : EndpointKey K :=
  (real.round6 point.1, real.round6 point.2, layer)

/-- The traces with an end at a point. A trace without a net has none. -/
def endpointMap (group : List (TraceSegment K)) (key : EndpointKey K) : List ℕ :=
  group.zipIdx.flatMap fun (seg, idx) =>
    if seg.net_id = "" then []
    else ([endpointKey real seg.start seg.layer, endpointKey real seg.stop seg.layer].filter fun k =>
      k = key).map fun _ => idx

/-- The traces that share an end with a trace. -/
def neighbours (group : List (TraceSegment K)) (idx : ℕ) : List ℕ :=
  match group[idx]? with
  | none => []
  | some seg =>
    endpointMap real group (endpointKey real seg.start seg.layer) ++
      endpointMap real group (endpointKey real seg.stop seg.layer)

def netChains (group : List (TraceSegment K)) : List (List (TraceSegment K)) :=
  (Walk.groups (neighbours real group) group.length).map fun idxs => idxs.filterMap fun idx => group[idx]?

/-! ## From head to tail -/

def reversedSeg (s : TraceSegment K) : TraceSegment K := plainTrace s.layer s.stop s.start s.width s.net_id

/-- The ends of a chain by their points: the index of a trace, and whether the end is its start. -/
def chainEndpointInfo (chain : List (TraceSegment K)) : Dict (EndpointKey K) (List (ℕ × Bool)) :=
  Dict.groupBy Prod.fst Prod.snd
    (chain.zipIdx.flatMap fun (segment, index) =>
      [(endpointKey real segment.start segment.layer, (index, true)),
        (endpointKey real segment.stop segment.layer, (index, false))])

/-- The first free end, or the start of the first trace. -/
def chainStart (endpoint_info : Dict (EndpointKey K) (List (ℕ × Bool))) : ℕ × Bool :=
  (endpoint_info.values.findSome? fun connections =>
    match connections with
    | [connection] => some connection
    | _ => none).getD (0, true)

/-- The first unused trace with an end at the current one, turned to start there. -/
def nextChainSegment (chain : List (TraceSegment K)) (used : List ℕ) (current_end : EndpointKey K) :
    Option (ℕ × TraceSegment K × EndpointKey K) :=
  chain.zipIdx.findSome? fun (segment, index) =>
    if index ∈ used then none
    else
      let start_key := endpointKey real segment.start segment.layer
      let end_key := endpointKey real segment.stop segment.layer
      if start_key = current_end then some (index, segment, end_key)
      else if end_key = current_end then some (index, reversedSeg segment, start_key)
      else none

/-- At most `n` more traces of a chain, in order. -/
def orderFrom (chain : List (TraceSegment K)) : ℕ → List ℕ → EndpointKey K → List (TraceSegment K)
  | 0, _, _ => []
  | n + 1, used, current_end =>
    match nextChainSegment real chain used current_end with
    | none => []
    | some (index, segment, current_end) => segment :: orderFrom chain n (index :: used) current_end

def firstSegment (chain : List (TraceSegment K)) : Option (ℕ × TraceSegment K) :=
  let (start_index, forward) := chainStart (chainEndpointInfo real chain)
  (chain[start_index]?).map fun segment => (start_index, if forward then segment else reversedSeg segment)

def orderChain (chain : List (TraceSegment K)) : List (TraceSegment K) :=
  if chain.length ≤ 1 then chain
  else
    match firstSegment real chain with
    | none => []
    | some (start_index, first) =>
      first :: orderFrom real chain (chain.length - 1) [start_index] (endpointKey real first.stop first.layer)

/-! ## Corners -/

structure FilletGeometry (K : Type) where
  tangent_in : Point K
  tangent_out : Point K
  center : Point K
  radius : K
  trace_width : K
  deriving DecidableEq

structure FilletJoint (K : Type) where
  point : Point K
  incoming_unit : Point K
  outgoing_unit : Point K
  inverse_incoming : Point K
  incoming_length : K
  outgoing_length : K
  internal_angle : K

/-- The length of a vector. -/
def RealFunctions.norm (u : Point K) : K := real.sqrt (u.1 ^ 2 + u.2 ^ 2)

/-- The directions of two traces, with their lengths. -/
def filletJointVectors (previous segment : TraceSegment K) : Option (Point K × Point K × K × K) :=
  let incoming := vec previous.start previous.stop
  let outgoing := vec segment.start segment.stop
  let incoming_length := real.norm incoming
  let outgoing_length := real.norm outgoing
  if incoming_length < 1 / 10 ^ 9 ∨ outgoing_length < 1 / 10 ^ 9 then none
  else
    some ((incoming.1 / incoming_length, incoming.2 / incoming_length),
      (outgoing.1 / outgoing_length, outgoing.2 / outgoing_length), incoming_length, outgoing_length)

def eligibleFilletJoint (previous segment : TraceSegment K) (min_angle_rad : K) : Option (FilletJoint K) :=
  if previous.layer ≠ segment.layer then none
  else
    let point := (real.round6 previous.stop.1, real.round6 previous.stop.2)
    if point ≠ (real.round6 segment.start.1, real.round6 segment.start.2) then none
    else
      match filletJointVectors real previous segment with
      | none => none
      | some (incoming_unit, outgoing_unit, incoming_length, outgoing_length) =>
        let inverse_incoming := (-incoming_unit.1, -incoming_unit.2)
        let cosine := dot inverse_incoming outgoing_unit
        let theta := real.acos (max (-1) (min 1 cosine))
        if theta < min_angle_rad ∨ real.pi - min_angle_rad < theta then none
        else
          let internal_angle := real.pi - theta
          if internal_angle < real.radians 5 then none
          else
            some
              { point := point
                incoming_unit := incoming_unit
                outgoing_unit := outgoing_unit
                inverse_incoming := inverse_incoming
                incoming_length := incoming_length
                outgoing_length := outgoing_length
                internal_angle := internal_angle }

variable (params : FilletParams K)

/-- The largest part of a trace that an arc may take. -/
def tangentClipRatio : K := 40 / 100

/-- The radius of the arc, how far from the corner it starts, and its width. -/
def filletRadiusTangent (previous segment : TraceSegment K) (joint : FilletJoint K) :
    Except ArithmeticError (Option (K × K × K)) :=
  let trace_width := max (max previous.width segment.width) (1 / 100)
  let radius := min params.default_radius (trace_width * params.radius_scale)
  let radius := min radius (params.max_radius.getD params.default_radius)
  let tangent_half := real.tan (joint.internal_angle / 2)
  if tangent_half < 1 / 10 ^ 9 then .ok none
  else
    let tangent_distance := radius / tangent_half
    if tangent_distance = 0 then .error .zeroDivision
    else
      let ratio := min (min (joint.incoming_length * tangentClipRatio / tangent_distance)
        (joint.outgoing_length * tangentClipRatio / tangent_distance)) 1
      if ratio < 1 / 100 then .ok none
      else if radius * ratio < params.min_radius then .ok none
      else .ok (some (radius * ratio, tangent_distance * ratio, trace_width))

def filletCenterGeometry (previous segment : TraceSegment K) (joint : FilletJoint K)
    (radius tangent_distance trace_width : K) : Option (FilletGeometry K) :=
  let tangent_in := (previous.stop.1 - joint.incoming_unit.1 * tangent_distance,
    previous.stop.2 - joint.incoming_unit.2 * tangent_distance)
  let tangent_out := (segment.start.1 + joint.outgoing_unit.1 * tangent_distance,
    segment.start.2 + joint.outgoing_unit.2 * tangent_distance)
  let bisector := (joint.inverse_incoming.1 + joint.outgoing_unit.1,
    joint.inverse_incoming.2 + joint.outgoing_unit.2)
  let bisector_length := real.norm bisector
  if bisector_length < 1 / 10 ^ 9 then none
  else
    let bisector_unit := (bisector.1 / bisector_length, bisector.2 / bisector_length)
    let sine_half := real.sin (joint.internal_angle / 2)
    let center_distance := if 1 / 10 ^ 9 < sine_half then radius / sine_half else 0
    some
      { tangent_in := tangent_in
        tangent_out := tangent_out
        center := (joint.point.1 + bisector_unit.1 * center_distance,
          joint.point.2 + bisector_unit.2 * center_distance)
        radius := radius
        trace_width := trace_width }

def filletGeometry (previous segment : TraceSegment K) :
    Except ArithmeticError (Option (FilletGeometry K)) :=
  match eligibleFilletJoint real previous segment (real.radians params.min_angle_deg) with
  | none => .ok none
  | some joint => do
    match ← filletRadiusTangent real params previous segment joint with
    | none => return none
    | some (radius, tangent_distance, trace_width) =>
      return filletCenterGeometry real previous segment joint radius tangent_distance trace_width

/-! ## Output -/

/-- A trace of the output: what is left of a trace, or a piece of an arc. -/
inductive Emitted (K : Type)
  | trace (segment : TraceSegment K)
  | arc (segment : TraceSegment K)

def Emitted.segment : Emitted K → TraceSegment K
  | trace segment => segment
  | arc segment => segment

/-- The traces of an output that are no piece of an arc. -/
def keptTraces (emitted : List (Emitted K)) : List (TraceSegment K) :=
  emitted.filterMap fun
    | .trace segment => some segment
    | .arc _ => none

def approxArc (center t1 t2 : Point K) (r : K) (n_segments : ℤ) (width : K) (net_id layer : String) :
    List (TraceSegment K) :=
  let rel1 := vec center t1
  let rel2 := vec center t2
  let a1 := real.atan2 rel1.2 rel1.1
  let a2 := real.atan2 rel2.2 rel2.1
  let sweep := real.mod (a2 - a1) (2 * real.pi)
  let sweep := if real.pi < sweep then sweep - 2 * real.pi else sweep
  if |sweep| < 1 / 10 ^ 6 then []
  else
    let n := (max n_segments 2).toNat
    let arcPoint := fun (i : ℕ) =>
      let angle := a1 + sweep * (i / n)
      (center.1 + r * real.cos angle, center.2 + r * real.sin angle)
    (List.range n).filterMap fun i =>
      let p := arcPoint (i + 1)
      let pp := arcPoint i
      if (1 / 10 ^ 6) ^ 2 < distSq pp p then
        some (plainTrace layer (real.round3 pp.1, real.round3 pp.2) (real.round3 p.1, real.round3 p.2) width net_id)
      else none

/-- What is left of the first trace, the arc, and what is left of the second. -/
def emitFilletSegments (previous segment : TraceSegment K) (geometry : FilletGeometry K) : List (Emitted K) :=
  (if (1 / 10 ^ 6) ^ 2 < distSq previous.start geometry.tangent_in then
      [.trace (plainTrace previous.layer previous.start geometry.tangent_in previous.width previous.net_id)]
    else []) ++
  (approxArc real geometry.center geometry.tangent_in geometry.tangent_out geometry.radius
    params.segments_per_arc geometry.trace_width previous.net_id previous.layer).map .arc ++
  [.trace (plainTrace segment.layer geometry.tangent_out segment.stop segment.width segment.net_id)]

/-- The rest of a chain after a trace that is not in the output yet. -/
def filletChainFrom : Option (TraceSegment K) → List (TraceSegment K) →
    Except ArithmeticError (List (Emitted K))
  | none, [] => .ok []
  | some previous, [] => .ok [.trace previous]
  | none, segment :: rest => filletChainFrom (some segment) rest
  | some previous, segment :: rest => do
    match ← filletGeometry real params previous segment with
    | none => return .trace previous :: (← filletChainFrom (some segment) rest)
    | some geometry =>
      return emitFilletSegments real params previous segment geometry ++ (← filletChainFrom none rest)

def filletChain (chain : List (TraceSegment K)) : Except ArithmeticError (List (Emitted K)) :=
  filletChainFrom real params none chain

def netGroups (traces : List (TraceSegment K)) : List (List (TraceSegment K)) :=
  (Dict.groupBy TraceSegment.net_id id traces).values

/-- All chains, from head to tail. -/
def orderedChains (traces : List (TraceSegment K)) : List (List (TraceSegment K)) :=
  (netGroups traces).flatMap fun group => (netChains real group).map (orderChain real)

/-- The traces with arcs, each marked as what it is. -/
def filletTraces (traces : List (TraceSegment K)) : Except ArithmeticError (List (Emitted K)) := do
  return (← (orderedChains real traces).mapM (filletChain real params)).flatten

def applyFillets (traces : List (TraceSegment K)) : Except ArithmeticError (List (TraceSegment K)) := do
  return (← filletTraces real params traces).map Emitted.segment

end ZapTrace.Routing.Fillet
