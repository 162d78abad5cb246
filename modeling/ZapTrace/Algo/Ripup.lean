import Mathlib.Data.List.Sort
import Mathlib.Data.String.Basic
import ZapTrace.Algo.Rounding
import ZapTrace.Library.Dict

/-!
# Bounded rip-up and reroute

Each iteration scores the nets that are not routed, rips up the first few of them and tries to route them again. A net
is routed as one L after the other, always to the nearest position that is left; a net with fewer than two positions
cannot be routed and goes back to the others.

The scores are made anew in each iteration, so that the attempts that an iteration writes into them are lost. The cost
factor is kept, but nothing reads it.
-/

namespace ZapTrace.Ripup

open CopperPour (roundTo)

/-! ## Data -/

structure RipupConfig where
  max_iterations : ℤ := 10
  max_seconds : ℚ := 30
  min_improvement : ℚ := 0
  cost_inflation : ℚ := 3 / 2
  max_rip_per_iter : ℤ := 5

def DEFAULT_RIPUP_CONFIG : RipupConfig := {}

structure NetConflict where
  net_name : String
  conflict_degree : ℕ := 0
  estimated_length_mm : ℚ := 0
  conflict_score : ℚ := 0
  attempts : ℕ := 0
  last_reason : String := ""

structure RipupIteration where
  iteration : ℕ
  nets_ripped : List String
  nets_recovered : List String
  nets_remaining : List String
  routed_before : ℤ
  routed_after : ℤ

inductive RipupStatus
  | pass
  | partialRoute
  | noSolution
  | timeout
  | skipped
  deriving DecidableEq

structure RipupResult where
  status : RipupStatus
  design_name : String
  routed_nets_before : ℤ
  routed_nets_after : ℤ
  total_nets : ℤ
  remaining_conflicts : List NetConflict
  iterations : List RipupIteration
  config : RipupConfig

abbrev Segment := (ℚ × ℚ) × ℚ × ℚ

abbrev RouteTable := Dict String (List Segment)

abbrev Positions := Dict String (List (ℚ × ℚ))

structure RipupState where
  route_table : RouteTable
  current_unrouted : List String
  current_routed : ℤ
  iterations_done : List RipupIteration := []
  cost_factor : ℚ := 1

/-! ## The walk to the nearest position -/

variable (sqrt : ℚ → ℚ)

def distance (position current : ℚ × ℚ) : ℚ :=
  sqrt ((position.1 - current.1) ^ 2 + (position.2 - current.2) ^ 2)

/-- The better of the best so far and one more position. -/
def closer (current : ℚ × ℚ) (best : Option (ℚ × ℕ)) (p : (ℚ × ℚ) × ℕ) : Option (ℚ × ℕ) :=
  match best with
  | none => some (distance sqrt p.1 current, p.2)
  | some best =>
    if distance sqrt p.1 current < best.1 then some (distance sqrt p.1 current, p.2) else some best

/-- The least distance and its index; of several, the first. -/
def nearest (current : ℚ × ℚ) (remaining : List (ℚ × ℚ)) : Option (ℚ × ℕ) :=
  remaining.zipIdx.foldl (closer sqrt current) none

/-- The steps of the walk, each with its distance. Both loops of the program take them; every step takes one position
from the remaining ones. -/
def walk : ℕ → ℚ × ℚ → List (ℚ × ℚ) → List (ℚ × Segment)
  | 0, _, _ => []
  | k + 1, current, remaining =>
    match nearest sqrt current remaining with
    | none => []
    | some (best_distance, best_index) =>
      match remaining[best_index]? with
      | none => []
      | some next => (best_distance, current, next) :: walk k next (remaining.eraseIdx best_index)

def walkFrom : List (ℚ × ℚ) → List (ℚ × Segment)
  | [] => []
  | current :: remaining => walk sqrt remaining.length current remaining

/-! ## Scores -/

/-- The lower left and the upper right corner. -/
abbrev Bbox := (ℚ × ℚ) × ℚ × ℚ

def bboxOf (points : List (ℚ × ℚ)) : Option Bbox := do
  let x_min ← (points.map Prod.fst).min?
  let y_min ← (points.map Prod.snd).min?
  let x_max ← (points.map Prod.fst).max?
  let y_max ← (points.map Prod.snd).max?
  some ((x_min, y_min), x_max, y_max)

def segmentsBbox (segments : List Segment) : Option Bbox := bboxOf (segments.flatMap fun s => [s.1, s.2])

def bboxesOverlap (a b : Bbox) : Bool :=
  decide (a.2.1 ≥ b.1.1 ∧ b.2.1 ≥ a.1.1 ∧ a.2.2 ≥ b.1.2 ∧ b.2.2 ≥ a.1.2)

def estimateUnroutedGeometry (positions : List (ℚ × ℚ)) : ℚ × Option Bbox :=
  if positions.length < 2 then (0, none)
  else ((walkFrom sqrt positions).foldl (fun estimated_length step => estimated_length + step.1) 0, bboxOf positions)

def routeConflictDegree (net_name : String) (estimated_bbox : Option Bbox) (route_table : RouteTable) : ℕ :=
  match estimated_bbox with
  | none => 0
  | some bbox =>
    route_table.items.countP fun other =>
      other.1 ≠ net_name ∧ ((segmentsBbox other.2).any fun other_bbox => bboxesOverlap bbox other_bbox)

def conflictOf (route_table : RouteTable) (node_positions : Positions) (net_name : String) : NetConflict :=
  let estimate := estimateUnroutedGeometry sqrt ((node_positions.get? net_name).getD [])
  let conflict_degree := routeConflictDegree net_name estimate.2 route_table
  { net_name
    conflict_degree
    estimated_length_mm := roundTo 4 estimate.1
    conflict_score := roundTo 4 (estimate.1 * (1 + conflict_degree)) }

/-- The greater score first; of one score, in the order of the names. -/
def ComesFirst (c c' : NetConflict) : Prop :=
  c'.conflict_score < c.conflict_score ∨ (c.conflict_score = c'.conflict_score ∧ c.net_name ≤ c'.net_name)

instance : DecidableRel ComesFirst := fun c c' =>
  inferInstanceAs (Decidable (c'.conflict_score < c.conflict_score ∨
    (c.conflict_score = c'.conflict_score ∧ c.net_name ≤ c'.net_name)))

def scoreConflicts (unrouted : List String) (route_table : RouteTable) (node_positions : Positions) :
    List NetConflict :=
  (unrouted.map (conflictOf sqrt route_table node_positions)).insertionSort ComesFirst

/-! ## One iteration -/

def attemptRouteNet (positions : List (ℚ × ℚ)) : Option (List Segment) :=
  if positions.length < 2 then none
  else some ((walkFrom sqrt positions).flatMap fun step =>
    -- horizontal, then vertical
    let current := step.2.1
    let next := step.2.2
    [(current, next.1, current.2), ((next.1, current.2), next)])

/-- The slice `xs[:n]`. -/
def upTo {α : Type} (n : ℤ) (xs : List α) : List α :=
  if 0 ≤ n then xs.take n.toNat else xs.take (xs.length - n.natAbs)

/-- The record of a net that an iteration rips up. -/
def NetConflict.attempted (iteration_num : ℕ) (conflict : NetConflict) : NetConflict :=
  { conflict with
    attempts := conflict.attempts + 1
    last_reason := "ripped in iteration " ++ toString iteration_num }

/-- The selected nets, the records with the new attempts, and the routes without those of the nets. -/
def selectNetsToRip (conflicts : List NetConflict) (config : RipupConfig) (iteration_num : ℕ)
    (route_table : RouteTable) : List String × List NetConflict × RouteTable :=
  let chosen := upTo config.max_rip_per_iter conflicts
  let selected := chosen.map NetConflict.net_name
  (selected, chosen.map (NetConflict.attempted iteration_num) ++ conflicts.drop chosen.length,
    selected.foldl (fun table net_name => table.erase net_name) route_table)

/-- Whether the net can be routed. -/
def routable (positions : Positions) (net_name : String) : Bool :=
  decide (2 ≤ ((positions.get? net_name).getD []).length)

def rerouteOne (positions : Positions) (out : (List String × List String) × RouteTable) (net_name : String) :
    (List String × List String) × RouteTable :=
  match attemptRouteNet sqrt ((positions.get? net_name).getD []), routable positions net_name with
  | some route, true => ((out.1.1 ++ [net_name], out.1.2), out.2.set net_name route)
  | _, _ => ((out.1.1, out.1.2 ++ [net_name]), out.2)

def rerouteSelectedNets (selected : List String) (positions : Positions) (route_table : RouteTable) :
    (List String × List String) × RouteTable :=
  selected.foldl (rerouteOne sqrt positions) (([], []), route_table)

def executeRipupIteration (state : RipupState) (positions : Positions) (config : RipupConfig) (iteration_num : ℕ) :
    RipupState :=
  let conflicts := scoreConflicts sqrt state.current_unrouted state.route_table positions
  let ripped := selectNetsToRip conflicts config iteration_num state.route_table
  -- the records of `ripped` are dropped here
  let rerouted := rerouteSelectedNets sqrt ripped.1 positions ripped.2.2
  let current_routed := state.current_routed + rerouted.1.1.length
  let current_unrouted := (state.current_unrouted.filter fun net => net ∉ ripped.1) ++ rerouted.1.2
  { route_table := rerouted.2
    current_unrouted
    current_routed
    iterations_done := state.iterations_done ++
      [⟨iteration_num, ripped.1, rerouted.1.1, current_unrouted, state.current_routed, current_routed⟩]
    cost_factor := state.cost_factor * config.cost_inflation }

/-! ## The pass -/

def stopAfterIteration (state : RipupState) (routed_before total_nets : ℤ) (config : RipupConfig) : Bool :=
  if state.current_unrouted = [] then true
  else
    let improvement_fraction : ℚ :=
      if 0 < total_nets then ((state.current_routed - routed_before : ℤ) : ℚ) / total_nets else 0
    decide (0 < config.min_improvement ∧ improvement_fraction < config.min_improvement)

/-- The iterations from a number on, `k` at most. An iteration starts when `elapsed` says. -/
def iterations (positions : Positions) (config : RipupConfig) (total_nets : ℤ) (elapsed : ℕ → ℚ) :
    ℕ → ℕ → RipupState → RipupState
  | 0, _, state => state
  | k + 1, iteration_num, state =>
    if config.max_seconds ≤ elapsed iteration_num then state
    else
      let state' := executeRipupIteration sqrt state positions config iteration_num
      if stopAfterIteration state' state.current_routed total_nets config then state'
      else iterations positions config total_nets elapsed k (iteration_num + 1) state'

def ripupStatus (state : RipupState) (routed_before : ℤ) (elapsed_total : ℚ) (config : RipupConfig) : RipupStatus :=
  if state.current_unrouted = [] then .pass
  else if config.max_seconds ≤ elapsed_total then .timeout
  else if routed_before < state.current_routed then .partialRoute
  else .noSolution

def skippedRipupResult (design_name : String) (routed_nets total_nets : ℤ) (config : RipupConfig) : RipupResult where
  status := .skipped
  design_name := design_name
  routed_nets_before := routed_nets
  routed_nets_after := routed_nets
  total_nets := total_nets
  remaining_conflicts := []
  iterations := []
  config := config

def finalizeRipupResult (design_name : String) (state : RipupState) (routed_before total_nets : ℤ)
    (positions : Positions) (config : RipupConfig) (elapsed_total : ℚ) : RipupResult where
  status := ripupStatus state routed_before elapsed_total config
  design_name := design_name
  routed_nets_before := routed_before
  routed_nets_after := state.current_routed
  total_nets := total_nets
  remaining_conflicts := scoreConflicts sqrt state.current_unrouted state.route_table positions
  iterations := state.iterations_done
  config := config

/-- The state before the first iteration. -/
def startState (unrouted_nets : List String) (routed_nets : ℤ) (initial_route_table : Option RouteTable) :
    RipupState where
  route_table := initial_route_table.getD Dict.empty
  current_unrouted := unrouted_nets
  current_routed := routed_nets

def runRipupReroute (design_name : String) (unrouted_nets : List String) (routed_nets total_nets : ℤ)
    (node_positions : Option Positions) (config : Option RipupConfig) (initial_route_table : Option RouteTable)
    (elapsed : ℕ → ℚ) (elapsed_total : ℚ) : RipupResult :=
  let cfg := config.getD DEFAULT_RIPUP_CONFIG
  let positions := node_positions.getD Dict.empty
  if unrouted_nets = [] then skippedRipupResult design_name routed_nets total_nets cfg
  else
    let state := iterations sqrt positions cfg total_nets elapsed cfg.max_iterations.toNat 1
      (startState unrouted_nets routed_nets initial_route_table)
    finalizeRipupResult sqrt design_name state routed_nets total_nets positions cfg elapsed_total

end ZapTrace.Ripup
