import ZapTrace.Core.Models
import ZapTrace.Library.Plane

/-!
# Routed boards and net identity

The model that the checks of a routed board read. A trace is a segment on a layer, with a net and a
width; a via is a record of the routing, with or without a net, or a flag on a trace. Traces and vias
name nets by the identifier. The human name of a net is accepted as well, when only one net has it, and
normalization replaces it. Coordinates are in an ordered field.

How numbers are rounded and written in messages is a parameter of the checks.
-/

namespace ZapTrace.Routing

open List

open Plane (Point)
open Models (NetType)

structure TraceSegment (K : Type) where
  layer : String
  start : Point K
  stop : Point K
  width : K
  net_id : String := ""
  /-- The segment ends with a via. -/
  via : Bool := false
  via_diameter : K
  via_hole : K
  deriving DecidableEq

/-- A via of the routing, a tuple of four numbers and perhaps a net. -/
structure Via (K : Type) where
  x : K
  y : K
  diameter : K
  hole : K
  net_id : Option String := none
  deriving DecidableEq

structure RouteResult (K : Type) where
  traces : List (TraceSegment K) := []
  vias : List (Via K) := []
  deriving DecidableEq

inductive NetClass
  | signalLow | signalHigh | signalAnalog
  | powerLow | powerMed | powerHigh
  | ground | differential | rf
  deriving DecidableEq

def NetClass.value : NetClass → String
  | signalLow => "signal_low"
  | signalHigh => "signal_high"
  | signalAnalog => "signal_analog"
  | powerLow => "power_low"
  | powerMed => "power_med"
  | powerHigh => "power_high"
  | ground => "ground"
  | differential => "differential"
  | rf => "rf"

structure NetConstraints (K : Type) where
  is_high_current : Bool := false
  min_trace_width_mm : Option K := none

structure Net (K : Type) where
  id : String
  name : String
  type : NetType := .signal
  nodes : List Models.NetNode := []
  constraints : Option (NetConstraints K) := none

structure Pad (K : Type) where
  position : Point K
  /-- The diameter of a round hole. -/
  drill : Option K := none
  plated : Bool := true

structure FootprintDef (K : Type) where
  pads : List (Pad K) := []

structure Component (K : Type) where
  id : String
  ref : String
  footprint_def : Option (FootprintDef K) := none
  position : Option (Point K) := none

structure MountingHole (K : Type) where
  position : Point K
  diameter : K
  plated : Bool := false

structure BoardConstraints (K : Type) where
  min_clearance_high_voltage : K
  min_annular_ring : K
  min_solder_mask_sliver : K

structure BoardDefinition (K : Type) where
  outline : List (Point K) := []
  mounting_holes : List (MountingHole K) := []
  constraints : BoardConstraints K
  copper_pour_gnd : Bool := true

/-- The legacy board configuration. -/
structure BoardConfig (K : Type) where
  width_mm : K
  height_mm : K
  copper_pour_gnd : Bool := true
  min_clearance_mm : K

structure Design (K : Type) where
  components : Dict String (Component K) := Dict.empty
  nets : Dict String (Net K) := Dict.empty
  board : BoardConfig K
  board_def : Option (BoardDefinition K) := none
  placement : Option (Dict String (Point K)) := none
  routing : Option (RouteResult K) := none
  net_classes : Option (Dict String NetClass) := none
  /-- The nets with an area of copper pour. -/
  copper_pours : List String := []

variable {K : Type}

/-! ## Clearances -/

/-- A distance of which the square is given, less the copper on it. -/
structure Gap (K : Type) where
  distSq : K
  copper : K

/-- How numbers are rounded, and how they are written in messages. -/
structure Format (K : Type) where
  round3 : K → K
  fixed1 : K → String
  fixed2 : K → String
  fixed3 : K → String
  gap3 : Gap K → String
  shown : K → String
  /-- What `design.nets.get` gives, as text. -/
  net : Option (Net K) → String

section Gap

variable [Field K] [LinearOrder K]

/-- The clearance is at least `m`. -/
def Gap.AtLeast (gap : Gap K) (m : K) : Prop := Plane.AtLeast gap.distSq (m + gap.copper)

instance (gap : Gap K) (m : K) : Decidable (gap.AtLeast m) := inferInstanceAs (Decidable (Plane.AtLeast _ _))

/-- The clearance is at most `m`. -/
def Gap.AtMost (gap : Gap K) (m : K) : Prop := 0 ≤ m + gap.copper ∧ gap.distSq ≤ (m + gap.copper) ^ 2

instance (gap : Gap K) (m : K) : Decidable (gap.AtMost m) := inferInstanceAs (Decidable (_ ∧ _))

end Gap

section Pairs

variable {α : Type}

/-- All pairs of a list, in the order of two nested loops. -/
def tracePairs : List α → List (α × α)
  | [] => []
  | first :: rest => rest.map (Prod.mk first) ++ tracePairs rest

theorem forall_tracePairs_iff {R : α → α → Prop} {xs : List α} :
    (∀ pair ∈ tracePairs xs, R pair.1 pair.2) ↔ xs.Pairwise R := by
  induction xs with
  | nil => simp [tracePairs]
  | cons first rest ih =>
    simp only [tracePairs, mem_append, mem_map, pairwise_cons, ← ih]
    constructor
    · intro h
      exact ⟨fun second hsecond => h _ (.inl ⟨second, hsecond, rfl⟩), fun pair hpair => h pair (.inr hpair)⟩
    · rintro ⟨hfirst, hrest⟩ pair (⟨second, hsecond, rfl⟩ | hpair)
      · exact hfirst second hsecond
      · exact hrest pair hpair

theorem mem_of_mem_tracePairs {xs : List α} {pair : α × α} (h : pair ∈ tracePairs xs) :
    pair.1 ∈ xs ∧ pair.2 ∈ xs := by
  induction xs with
  | nil => exact absurd h not_mem_nil
  | cons first rest ih =>
    rcases mem_append.mp h with h | h
    · obtain ⟨second, hsecond, rfl⟩ := mem_map.mp h
      exact ⟨mem_cons_self, mem_cons_of_mem _ hsecond⟩
    · exact (ih h).imp (mem_cons_of_mem _) (mem_cons_of_mem _)

theorem tracePairs_map {β : Type} (f : α → β) (xs : List α) :
    tracePairs (xs.map f) = (tracePairs xs).map (Prod.map f f) := by
  induction xs with
  | nil => rfl
  | cons x xs ih =>
    rw [map_cons, tracePairs, tracePairs, ih, map_append, map_map, map_map]
    rfl

end Pairs

/-! ## Net identity -/

/-- The net that a reference names: an identifier, or a name that only one net has. -/
def canonicalNetId (nets : Dict String (Net K)) (ref : String) : Option String :=
  if ref = "" then none
  else if ref ∈ nets.keys then some ref
  else
    match (nets.values.filter fun net => net.name = ref).map Net.id with
    | [id] => some id
    | _ => none

/-- A trace with its net by the identifier. A reference that names no net stays. -/
def normalizeTrace (nets : Dict String (Net K)) (trace : TraceSegment K) : TraceSegment K :=
  match canonicalNetId nets trace.net_id with
  | some canonical => { trace with net_id := canonical }
  | none => trace

def normalizeVia (nets : Dict String (Net K)) (via : Via K) : Via K :=
  match via.net_id with
  | none => via
  | some ref =>
    match canonicalNetId nets ref with
    | some canonical => { via with net_id := some canonical }
    | none => via

def canonicalRoutingNetIds (nets : Dict String (Net K)) (routing : RouteResult K) : RouteResult K where
  traces := routing.traces.map (normalizeTrace nets)
  vias := routing.vias.map (normalizeVia nets)

/-- The traces of the routing of a design. -/
def traceSegments (design : Design K) : List (TraceSegment K) :=
  match design.routing with
  | none => []
  | some routing => routing.traces

/-! ## Small boards -/

/-- A format, for where the texts do not matter. -/
def plainFormat : Format ℚ where
  round3 := id
  fixed1 _ := ""
  fixed2 _ := ""
  fixed3 _ := ""
  gap3 _ := ""
  shown _ := ""
  net _ := ""

/-- A trace without a via. -/
def traceOf (layer net_id : String) (width : ℚ) (start stop : Point ℚ) : TraceSegment ℚ where
  layer := layer
  start := start
  stop := stop
  width := width
  net_id := net_id
  via_diameter := 9 / 20
  via_hole := 1 / 5

def boardOf (traces : List (TraceSegment ℚ)) : Design ℚ where
  board := { width_mm := 100, height_mm := 80, min_clearance_mm := 1 / 5 }
  routing := some { traces := traces }

end ZapTrace.Routing
