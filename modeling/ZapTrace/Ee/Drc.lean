import Mathlib.Data.String.Basic
import ZapTrace.Core.Routing

/-!
# Design rule checks of a routed board

A check returns the violations it finds in a design. Distances are given by their squares, and a
clearance by a distance and the copper that lies on it, so that checks compare without roots.
-/

namespace ZapTrace.Routing.Drc

open Plane

inductive DRCSeverity
  | error | warning | info
  deriving DecidableEq

structure DRCViolation where
  rule_id : String
  severity : DRCSeverity
  message : String
  location : Option String := none
  net_id : Option String := none
  component_id : Option String := none
  deriving DecidableEq

variable {K : Type} [Field K] [LinearOrder K]

/-! ## Distances -/

def pointSegmentDist (p a b : Point K) : K :=
  let ab := vec a b
  let ap := vec a p
  let t := if 0 < dot ab ab then dot ap ab / dot ab ab else 0
  distSq p (along a b (clamp t))

/-- The distance of two segments, as the engine has it: the parameters come from a closed form, and each
is clamped for itself. -/
def segmentSegmentDist (p1 p2 q1 q2 : Point K) : K :=
  let u := vec p1 p2
  let v := vec q1 q2
  let w := vec p1 q1
  let a := dot u u
  let b := dot u v
  let c := dot v v
  let d := dot u w
  let e := dot v w
  let D := a * c - b * b
  if |D| < 1 / 10 ^ 12 then
    min (min (min (pointSegmentDist p1 q1 q2) (pointSegmentDist p2 q1 q2)) (pointSegmentDist q1 p1 p2))
      (pointSegmentDist q2 p1 p2)
  else
    let sc := clamp ((b * e - c * d) / D)
    let tc := clamp ((a * e - b * d) / D)
    distSq (along p1 p2 sc) (along q1 q2 tc)

def segmentMinDistance (s1 s2 : TraceSegment K) : K :=
  segmentSegmentDist s1.start s1.stop s2.start s2.stop

def tracePairClearance (first second : TraceSegment K) : Gap K where
  distSq := segmentMinDistance first second
  copper := first.width / 2 + second.width / 2

/-! ## DRC-001 -/

/-- The first end of `first` that is an end of `second`. -/
def sharedEndpoint (first second : TraceSegment K) : Option (Point K) :=
  [first.start, first.stop].find? fun first_point =>
    [second.start, second.stop].any fun second_point => distSq first_point second_point < (1 / 1000) ^ 2

/-- Nets, layer and place of a contact. -/
structure ContactKey (K : Type) where
  nets : String × String
  layer : String
  x : K
  y : K
  deriving DecidableEq

variable (fmt : Format K)

def formatTraceLocation (seg : TraceSegment K) : String :=
  s!"{seg.net_id} ({fmt.fixed2 seg.start.1},{fmt.fixed2 seg.start.2}) -> ({fmt.fixed2 seg.stop.1},{fmt.fixed2 seg.stop.2})"

def clearanceContactKey (first second : TraceSegment K) : Option (ContactKey K) :=
  (sharedEndpoint first second).map fun shared_contact =>
    { nets := if second.net_id < first.net_id then (second.net_id, first.net_id)
        else (first.net_id, second.net_id)
      layer := first.layer
      x := fmt.round3 shared_contact.1
      y := fmt.round3 shared_contact.2 }

/-- The violation of one pair, and the contacts that are reported after it. -/
def clearanceViolation (min_clearance : K) (reported_contacts : List (ContactKey K))
    (first second : TraceSegment K) : Option DRCViolation × List (ContactKey K) :=
  if first.net_id = second.net_id ∨ first.layer ≠ second.layer then (none, reported_contacts)
  else
    let clearance := tracePairClearance first second
    if clearance.AtLeast min_clearance then (none, reported_contacts)
    else
      let contact_key := clearanceContactKey fmt first second
      if ∃ key ∈ contact_key, key ∈ reported_contacts then (none, reported_contacts)
      else
        (some
          { rule_id := "DRC-001"
            severity := .error
            message := s!"Clearance violation: net '{first.net_id}' and '{second.net_id}' " ++
              s!"are {fmt.gap3 clearance}mm apart (min {fmt.shown min_clearance}mm)"
            location := some
              s!"{first.layer}: {formatTraceLocation fmt first} | {formatTraceLocation fmt second}"
            net_id := some first.net_id },
          contact_key.toList ++ reported_contacts)

/-- The violations of pairs, one after the other. -/
def clearanceViolations (min_clearance : K) :
    List (ContactKey K) → List (TraceSegment K × TraceSegment K) → List DRCViolation
  | _, [] => []
  | reported_contacts, (first, second) :: pairs =>
    let (violation, reported_contacts) := clearanceViolation fmt min_clearance reported_contacts first second
    violation.toList ++ clearanceViolations min_clearance reported_contacts pairs

/-- `DRC-001`: clearance violation between traces of different nets. -/
def checkClearance (design : Design K) : List DRCViolation :=
  clearanceViolations fmt design.board.min_clearance_mm [] (tracePairs (traceSegments design))

/-! ## Net classes -/

structure NetClassRule (K : Type) where
  trace_width : K
  max_vias : ℕ

/-- The routing rules of the net classes. -/
structure KnowledgeBase (K : Type) where
  getRule : NetClass → NetClassRule K

/-- How nets are classified: by patterns of the name, by the voltage in it, and by the pins and components
on the net. No check changes what these read. -/
structure Classifier where
  classifyByName : String → Option NetClass
  classifyPowerByVoltage : String → Option NetClass
  classifyByPinTypes : String → String → NetClass

def Classifier.netClass (classifier : Classifier) (net_id : String) (net : Net K) : NetClass :=
  let name_class := classifier.classifyByName net.name
  let name_class :=
    if name_class ∈ [some .powerLow, some .powerMed, some .powerHigh, none] then
      match classifier.classifyPowerByVoltage net.name with
      | some voltage_class => some voltage_class
      | none => name_class
    else name_class
  name_class.getD (classifier.classifyByPinTypes net_id net.name)

/-- Every net that has no class gets one. -/
def classifyDesign (classifier : Classifier) (design : Design K) : Design K where
  __ := design
  net_classes := some (design.nets.items.foldl (fun classes item =>
    if item.1 ∈ classes.keys then classes else classes.set item.1 (classifier.netClass item.1 item.2))
    (design.net_classes.getD Dict.empty))

def getNetClass (classifier : Classifier) (design : Design K) (net_id : String) : NetClass × Design K :=
  let design :=
    if net_id ∈ (design.net_classes.getD Dict.empty).keys then design
    else classifyDesign classifier design
  (((design.net_classes.getD Dict.empty).get? net_id).getD .signalLow, design)

/-! ## Vias and holes -/

variable (kb : KnowledgeBase K) (classifier : Classifier)

/-- The traces that end with a via. -/
def flaggedTraces (routing : RouteResult K) : List (TraceSegment K) :=
  routing.traces.filter TraceSegment.via

/-- How many vias each net has, as far as they are marked on traces. -/
def viaCount (routing : RouteResult K) : Dict String ℕ := Dict.countBy TraceSegment.net_id (flaggedTraces routing)

/-- The violation of one net, and the design after its class is looked up. -/
def viaCountViolation (design : Design K) (net_id : String) (count : ℕ) : Option DRCViolation × Design K :=
  let (nc, design) := getNetClass classifier design net_id
  let rule := kb.getRule nc
  if rule.max_vias < count then
    (some
      { rule_id := "DRC-006"
        severity := .error
        message := s!"Net '{fmt.net (design.nets.get? net_id)}' ({net_id}) has {count} vias, " ++
          s!"exceeds {nc.value} limit of {rule.max_vias}"
        net_id := some net_id },
      design)
  else (none, design)

/-- `DRC-006`: via count exceeds net-class limit. -/
def checkViaCount (design : Design K) : List DRCViolation × Design K :=
  match design.routing with
  | none => ([], design)
  | some routing =>
    (viaCount routing).items.foldl (fun (vio, design) (net_id, count) =>
      let (violation, design) := viaCountViolation fmt kb classifier design net_id count
      (vio ++ violation.toList, design)) ([], design)

def minAnnularRing (design : Design K) : K :=
  match design.board_def with
  | some board_def => board_def.constraints.min_annular_ring
  | none => 13 / 100

def annularRing (diameter hole : K) : K := (diameter - hole) / 2

def annularRingViolation (min_annular_ring : K) (seg : TraceSegment K) : Option DRCViolation :=
  let annular_ring := annularRing seg.via_diameter seg.via_hole
  if annular_ring < min_annular_ring - 1 / 1000 then
    some
      { rule_id := "DRC-020"
        severity := .error
        message := s!"Via annular ring {fmt.fixed3 annular_ring}mm below minimum " ++
          s!"{fmt.fixed3 min_annular_ring}mm on net '{seg.net_id}'"
        net_id := some seg.net_id
        location := some s!"({fmt.fixed1 seg.start.1}, {fmt.fixed1 seg.start.2})" }
  else none

/-- `DRC-020`: via annular ring below minimum. -/
def checkMinAnnularRing (design : Design K) : List DRCViolation :=
  match design.routing with
  | none => []
  | some routing => (flaggedTraces routing).filterMap (annularRingViolation fmt (minAnnularRing design))

/-- A hole: its place, its diameter and its net. -/
structure DrilledHole (K : Type) where
  place : Point K
  diameter : K
  net_id : String

def viaHole (via : Via K) : DrilledHole K := ⟨(via.x, via.y), via.hole, via.net_id.getD ""⟩

def traceHole (segment : TraceSegment K) : DrilledHole K := ⟨segment.start, segment.via_hole, segment.net_id⟩

def routingDrilledHoles (routing : RouteResult K) : List (DrilledHole K) :=
  routing.vias.map viaHole ++ (flaggedTraces routing).map traceHole

/-- Between the walls of two holes. -/
def wallClearance (first second : DrilledHole K) : Gap K where
  distSq := distSq first.place second.place
  copper := (first.diameter + second.diameter) / 2

def holeClearanceViolation (first second : DrilledHole K) : Option DRCViolation :=
  let wall_clearance := wallClearance first second
  if wall_clearance.AtLeast (1 / 4 - 1 / 1000) then none
  else
    some
      { rule_id := "DRC-013"
        severity := .error
        message := s!"Via hole-to-hole wall clearance {fmt.gap3 wall_clearance}mm " ++
          s!"below IPC-2221 minimum 0.25mm (nets '{first.net_id}' and '{second.net_id}')"
        net_id := if first.net_id = "" then none else some first.net_id }

/-- `DRC-013`: via or drill hole-to-hole spacing below the minimum. -/
def checkHoleToHoleClearance (design : Design K) : List DRCViolation :=
  match design.routing with
  | none => []
  | some routing =>
    (tracePairs (routingDrilledHoles routing)).filterMap fun pair => holeClearanceViolation fmt pair.1 pair.2

end ZapTrace.Routing.Drc
