import ZapTrace.Ee.Drc

/-!
# The other rules of the design rule checks

What the engine checks besides the rules of `ZapTrace.Ee.Drc`: nets without nodes, classes or traces,
widths of traces, corners, the edge of the board, solder mask, high voltage and high current. One of
these rules replaces the references of the routing by identifiers before it looks for nets that are not
routed.
-/

namespace ZapTrace.Routing.Drc

open Plane

/-- How the engine rounds and writes numbers, and the functions of the mathematics library it uses. -/
structure EngineFormat (K : Type) extends Format K where
  /-- A number has no quotation mark. -/
  gap3_plain : ∀ gap, '\'' ∉ (toFormat.gap3 gap).toList
  fixed0 : K → String
  round6 : K → K
  sqrt : K → K
  acos : K → K
  degrees : K → K
  rpow : K → K → K

variable {K : Type} [Field K] [LinearOrder K] (fmt : EngineFormat K)

/-! ## Nets -/

def unconnectedNetViolation (net_id : String) (net : Net K) : Option DRCViolation :=
  match net.nodes.length with
  | 0 =>
    some
      { rule_id := "ERC-001"
        severity := .warning
        message := s!"Net '{net.name}' ({net_id}) has no connected nodes"
        net_id := some net_id }
  | 1 =>
    some
      { rule_id := "ERC-001"
        severity := .info
        message := s!"Net '{net.name}' ({net_id}) has only 1 node (unconnected end)"
        net_id := some net_id }
  | _ => none

/-- `ERC-001`: unconnected net. -/
def checkUnconnectedNets (design : Design K) : List DRCViolation :=
  design.nets.items.filterMap fun item => unconnectedNetViolation item.1 item.2

def unroutedNetViolation (text net_id : String) (net : Net K) : DRCViolation where
  rule_id := "DRC-005"
  severity := .error
  message := s!"Net '{net.name}' ({net_id}) {text}"
  net_id := some net_id

/-- `DRC-005`: net not routed. The references of the routing are replaced first, and stay so. -/
def checkUnroutedNets (design : Design K) : List DRCViolation × Design K :=
  match design.routing with
  | none =>
    ((design.nets.items.filter fun item => 2 ≤ item.2.nodes.length).map fun item =>
        unroutedNetViolation "has no routing traces" item.1 item.2,
      design)
  | some routing =>
    let routing := canonicalRoutingNetIds design.nets routing
    let routed_nets := routing.traces.map TraceSegment.net_id
    ((design.nets.items.filter fun item => 2 ≤ item.2.nodes.length ∧ item.1 ∉ routed_nets).map fun item =>
        unroutedNetViolation "not routed (no trace segments)" item.1 item.2,
      { design with routing := some routing })

def missingNetClassViolation (net_classes : Dict String NetClass) (net_id : String) (net : Net K) :
    Option DRCViolation :=
  if net_id ∈ net_classes.keys then none
  else
    some
      { rule_id := "DRC-010"
        severity := .info
        message := s!"Net '{net.name}' ({net_id}) has no net-class assignment"
        net_id := some net_id }

/-- `DRC-010`: net missing net-class classification. -/
def checkMissingNetClass (design : Design K) : List DRCViolation :=
  match design.net_classes with
  | none => []
  | some net_classes =>
    design.nets.items.filterMap fun item => missingNetClassViolation net_classes item.1 item.2

/-! ## Widths -/

variable (kb : KnowledgeBase K) (classifier : Classifier)

/-- The violation of a trace, given the class of its net. -/
def widthViolation (nc : NetClass) (seg : TraceSegment K) : Option DRCViolation :=
  let rule := kb.getRule nc
  if seg.width < rule.trace_width - 1 / 1000 then
    some
      { rule_id := "DRC-002"
        severity := .error
        message := s!"Trace width {fmt.fixed3 seg.width}mm below {nc.value} minimum " ++
          s!"{fmt.fixed3 rule.trace_width}mm on net '{seg.net_id}'"
        net_id := some seg.net_id
        location := some (s!"({fmt.fixed1 seg.start.1}, {fmt.fixed1 seg.start.2}) → " ++
          s!"({fmt.fixed1 seg.stop.1}, {fmt.fixed1 seg.stop.2})") }
  else none

/-- `DRC-002`: trace width below net-class minimum, and the design after the classes are looked up. -/
def checkTraceWidth (design : Design K) : List DRCViolation × Design K :=
  (traceSegments design).foldl (fun (vio, design) seg =>
    let (nc, design) := getNetClass classifier design seg.net_id
    (vio ++ (widthViolation fmt kb nc seg).toList, design)) ([], design)

def ipc2152MinWidthMm (current_a copper_oz delta_t_c : K) : K :=
  let thickness_mils := copper_oz * (137 / 100)
  let area_mils2 := fmt.rpow (current_a / (48 / 1000 * fmt.rpow delta_t_c (44 / 100))) (1 / (725 / 1000))
  area_mils2 / thickness_mils * (254 / 10000)

def highCurrentMinWidth (net : Net K) : Option K :=
  match net.constraints with
  | none => none
  | some constraints =>
    if constraints.is_high_current then
      match constraints.min_trace_width_mm with
      | some width => some (if width = 0 then ipc2152MinWidthMm fmt 1 1 10 else width)
      | none => some (ipc2152MinWidthMm fmt 1 1 10)
    else none

def highCurrentViolation (net_id : String) (net : Net K) (min_width_mm : K) (segment : TraceSegment K) :
    Option DRCViolation :=
  if min_width_mm - 1 / 1000 ≤ segment.width then none
  else
    some
      { rule_id := "DRC-012"
        severity := .error
        message := s!"High-current net '{net.name}' trace width {fmt.fixed3 segment.width}mm " ++
          s!"below IPC-2152 minimum {fmt.fixed3 min_width_mm}mm"
        net_id := some net_id }

/-- `DRC-012`: trace too narrow for rated current. -/
def checkHighCurrentTraceWidth (design : Design K) : List DRCViolation :=
  match design.routing with
  | none => []
  | some routing =>
    let traces_by_net := Dict.groupBy TraceSegment.net_id id routing.traces
    design.nets.items.flatMap fun item =>
      match highCurrentMinWidth fmt item.2 with
      | none => []
      | some min_width_mm =>
        ((traces_by_net.get? item.1).getD []).filterMap (highCurrentViolation fmt item.1 item.2 min_width_mm)

/-! ## Corners -/

def groupSegmentsByNetLayer (segments : List (TraceSegment K)) :
    Dict (String × String) (List (TraceSegment K)) :=
  Dict.groupBy (fun segment => (segment.net_id, segment.layer)) id segments

/-- Net, layer and rounded place of an end. -/
structure EndpointKey (K : Type) where
  net_id : String
  layer : String
  x : K
  y : K
  deriving DecidableEq

def endpointKey (net_id layer : String) (point : Point K) : EndpointKey K :=
  ⟨net_id, layer, fmt.round6 point.1, fmt.round6 point.2⟩

/-- How many traces end at each place. -/
def endpointDegrees (groups : Dict (String × String) (List (TraceSegment K))) : Dict (EndpointKey K) ℕ :=
  Dict.countBy id (groups.items.flatMap fun group => group.2.flatMap fun segment =>
    [endpointKey fmt group.1.1 group.1.2 segment.start, endpointKey fmt group.1.1 group.1.2 segment.stop])

/-- From a joint along a trace. -/
def vectorFromJoint (segment : TraceSegment K) (shared : Point K) : Point K :=
  vec shared (if distSq shared segment.start < (1 / 1000) ^ 2 then segment.stop else segment.start)

def norm (u : Point K) : K := fmt.sqrt (u.1 ^ 2 + u.2 ^ 2)

def jointAngleDegrees (first second : TraceSegment K) (shared : Point K) (min_segment_length : K) : Option K :=
  let first_vector := vectorFromJoint first shared
  let second_vector := vectorFromJoint second shared
  let first_norm := norm fmt first_vector
  let second_norm := norm fmt second_vector
  if min first_norm second_norm < min_segment_length then none
  else
    let cosine := max (-1) (min 1 (dot first_vector second_vector / (first_norm * second_norm)))
    some (fmt.degrees (fmt.acos cosine))

/-- The places where two traces of a net meet on a layer, and no third one does, with their angles. -/
def simpleTraceJoints (net_id layer : String) (segments : List (TraceSegment K))
    (endpoint_degrees : Dict (EndpointKey K) ℕ) (min_segment_length : K) : List (Point K × K) :=
  (tracePairs segments).filterMap fun (first, second) =>
    match sharedEndpoint first second with
    | none => none
    | some shared =>
      if 2 < (endpoint_degrees.get? (endpointKey fmt net_id layer shared)).getD 0 then none
      else (jointAngleDegrees fmt first second shared min_segment_length).map fun angle => (shared, angle)

/-- The joints of all nets and layers, with the angles that are selected. -/
def cornerViolations (min_segment_length : K) (selects : K → Bool)
    (violation : String → String → Point K → K → DRCViolation) (segments : List (TraceSegment K)) :
    List DRCViolation :=
  let groups := groupSegmentsByNetLayer segments
  let endpoint_degrees := endpointDegrees fmt groups
  groups.items.flatMap fun group =>
    ((simpleTraceJoints fmt group.1.1 group.1.2 group.2 endpoint_degrees min_segment_length).filter
      fun joint => selects joint.2).map fun joint => violation group.1.1 group.1.2 joint.1 joint.2

def rightAngleViolation (net_id layer : String) (shared : Point K) (angle_deg : K) : DRCViolation where
  rule_id := "DRC-003"
  severity := .warning
  message := s!"Right-angle corner ({fmt.fixed1 angle_deg}°) on net '{net_id}' layer {layer}"
  net_id := some net_id
  location := some s!"({fmt.fixed1 shared.1}, {fmt.fixed1 shared.2})"

/-- `DRC-003`: right-angle trace corners. -/
def checkRightAngle (design : Design K) : List DRCViolation :=
  cornerViolations fmt (3 / 10) (fun angle_deg => 89 ≤ |angle_deg| ∧ |angle_deg| ≤ 91)
    (rightAngleViolation fmt) (traceSegments design)

def acidTrapViolation (net_id layer : String) (shared : Point K) (angle_deg : K) : DRCViolation where
  rule_id := "DRC-023"
  severity := .error
  message := s!"Acid-trap (sharp angle {fmt.fixed1 angle_deg}°) on net '{net_id}' layer {layer}"
  net_id := some net_id
  location := some s!"({fmt.fixed1 shared.1}, {fmt.fixed1 shared.2})"

/-- `DRC-023`: acid traps. -/
def checkAcidTrap (design : Design K) : List DRCViolation :=
  cornerViolations fmt (1 / 1000) (fun angle_deg => 1 ≤ angle_deg ∧ angle_deg < 85)
    (acidTrapViolation fmt) (traceSegments design)

/-! ## The board -/

/-- The least and the greatest of the values of a list, the first of which is given. -/
def leastOf (x : K) (xs : List K) : K := xs.foldl min x

def greatestOf (x : K) (xs : List K) : K := xs.foldl max x

/-- Least and greatest coordinates of an outline, if it has a point. -/
def outlineBounds : List (Point K) → Option ((K × K) × K × K)
  | [] => none
  | point :: points =>
    some ((leastOf point.1 (points.map Prod.fst), greatestOf point.1 (points.map Prod.fst)),
      leastOf point.2 (points.map Prod.snd), greatestOf point.2 (points.map Prod.snd))

def boardEdgeOutline (design : Design K) : List (Point K) :=
  let legacy := [(0, 0), (design.board.width_mm, 0), (design.board.width_mm, design.board.height_mm),
    (0, design.board.height_mm)]
  match design.board_def with
  | some board_def => if board_def.outline = [] then legacy else board_def.outline
  | none => legacy

def rectangularEdgeDistance (point : Point K) (outline : List (Point K)) : Option K :=
  if outline.length ≠ 4 then none
  else
    (outlineBounds outline).map fun bounds =>
      min (min |point.1 - bounds.1.1| |point.1 - bounds.1.2|)
        (min |point.2 - bounds.2.1| |point.2 - bounds.2.2|)

/-- The violation of the first end of a trace that is too close to the edge. -/
def boardEdgeViolation (outline : List (Point K)) (min_clearance : K) (segment : TraceSegment K) :
    Option DRCViolation :=
  [segment.start, segment.stop].findSome? fun point =>
    match rectangularEdgeDistance point outline with
    | none => none
    | some distance =>
      if min_clearance - 1 / 1000 ≤ distance then none
      else
        some
          { rule_id := "DRC-021"
            severity := .error
            message := s!"Trace to board edge clearance {fmt.fixed3 distance}mm below minimum " ++
              s!"{fmt.fixed3 min_clearance}mm on net '{segment.net_id}'"
            net_id := some segment.net_id
            location := some s!"({fmt.fixed1 point.1}, {fmt.fixed1 point.2})" }

/-- `DRC-021`: copper to board edge clearance below minimum. -/
def checkBoardEdgeClearance (design : Design K) : List DRCViolation :=
  let outline := boardEdgeOutline design
  if outline.length < 3 then []
  else (traceSegments design).filterMap (boardEdgeViolation fmt outline (3 / 10))

/-- Bounds for the places of components, and the text for what is outside. -/
def componentPlacementLimits (design : Design K) : Option (((K × K) × K × K) × String) :=
  match design.board_def with
  | some board_def =>
    (outlineBounds board_def.outline).map fun bounds =>
      (((bounds.1.1 - 2, bounds.1.2 + 2), bounds.2.1 - 2, bounds.2.2 + 2), "outside board outline")
  | none =>
    some (((-2, design.board.width_mm + 2), -2, design.board.height_mm + 2),
      s!"outside board ({fmt.fixed0 design.board.width_mm}×{fmt.fixed0 design.board.height_mm}mm)")

def componentOutsideViolation (design : Design K) (bounds : (K × K) × K × K) (outside_description : String)
    (component_id : String) (position : Point K) : Option DRCViolation :=
  if (bounds.1.1 ≤ position.1 ∧ position.1 ≤ bounds.1.2) ∧
      bounds.2.1 ≤ position.2 ∧ position.2 ≤ bounds.2.2 then none
  else
    let reference := match design.components.get? component_id with
      | some component => component.ref
      | none => component_id
    some
      { rule_id := "DRC-011"
        severity := .error
        message := s!"Component '{reference}' placed at ({fmt.fixed1 position.1}, " ++
          s!"{fmt.fixed1 position.2}) {outside_description}"
        component_id := some component_id }

/-- `DRC-011`: component placed outside board boundary. -/
def checkComponentOutsideBoard (design : Design K) : List DRCViolation :=
  match componentPlacementLimits fmt design with
  | none => []
  | some (bounds, outside_description) =>
    (design.placement.getD Dict.empty).items.filterMap fun item =>
      componentOutsideViolation fmt design bounds outside_description item.1 item.2

def wantsPour (design : Design K) : Bool :=
  match design.board_def with
  | some board_def => board_def.copper_pour_gnd
  | none => design.board.copper_pour_gnd

/-- `DRC-025`: a board that wants a ground pour and has none. -/
def checkCopperBalance (design : Design K) : List DRCViolation :=
  if design.components.items.isEmpty ∧ design.nets.items.isEmpty then []
  else
    if wantsPour design ∧ design.copper_pours.isEmpty then
      [{ rule_id := "DRC-025"
         severity := .info
         message := "Copper-balance: Board requests GND pour, but no copper pours are defined" }]
    else []

/-! ## Pairs of traces -/

/-- Least sliver and least copper clearance. -/
def solderMaskLimits (design : Design K) : K × K :=
  (match design.board_def with
    | some board_def => board_def.constraints.min_solder_mask_sliver
    | none => 1 / 10,
    design.board.min_clearance_mm)

def solderMaskSliverViolation (min_sliver min_copper_clearance : K) (first second : TraceSegment K) :
    Option DRCViolation :=
  if first.net_id = second.net_id ∨ first.layer ≠ second.layer then none
  else
    let clearance := tracePairClearance first second
    if ¬ clearance.AtLeast min_copper_clearance then none
    -- in a clearance of at most 0.001 there is no mask
    else if clearance.AtMost (1 / 1000) ∨ clearance.AtLeast (min_sliver - 1 / 1000) then none
    else
      some
        { rule_id := "DRC-022"
          severity := .error
          message := s!"Solder-mask sliver {fmt.gap3 clearance}mm below minimum {fmt.fixed3 min_sliver}mm " ++
            s!"between nets '{first.net_id}' and '{second.net_id}'"
          location := some s!"layer={first.layer}" }

/-- `DRC-022`: solder-mask sliver below minimum. -/
def checkSolderMaskSliver (design : Design K) : List DRCViolation :=
  let limits := solderMaskLimits design
  (tracePairs (traceSegments design)).filterMap fun pair =>
    solderMaskSliverViolation fmt limits.1 limits.2 pair.1 pair.2

def highVoltageMinClearance (design : Design K) : K :=
  match design.board_def with
  | some board_def => board_def.constraints.min_clearance_high_voltage
  | none => 3 / 10

def highVoltageNetIds (design : Design K) : List String :=
  ((design.net_classes.getD Dict.empty).items.filter fun item => item.2 = NetClass.powerHigh).map Prod.fst

def highVoltageClearanceViolation (high_voltage_nets : List String) (min_clearance : K)
    (first second : TraceSegment K) : Option DRCViolation :=
  if first.net_id = second.net_id ∨ first.layer ≠ second.layer then none
  else if first.net_id ∉ high_voltage_nets ∧ second.net_id ∉ high_voltage_nets then none
  else
    let clearance := tracePairClearance first second
    if clearance.AtLeast (min_clearance - 1 / 1000) then none
    else
      some
        { rule_id := "DRC-024"
          severity := .error
          message := s!"High-voltage clearance violation: nets '{first.net_id}' and '{second.net_id}' " ++
            s!"are {fmt.gap3 clearance}mm apart (min {fmt.fixed3 min_clearance}mm)"
          location := some s!"layer={first.layer}"
          net_id := some first.net_id }

/-- `DRC-024`: clearance of high-voltage nets. -/
def checkHighVoltageClearance (design : Design K) : List DRCViolation :=
  let high_voltage_nets := highVoltageNetIds design
  if high_voltage_nets.isEmpty then []
  else
    (tracePairs (traceSegments design)).filterMap fun pair =>
      highVoltageClearanceViolation fmt high_voltage_nets (highVoltageMinClearance design) pair.1 pair.2

end ZapTrace.Routing.Drc
