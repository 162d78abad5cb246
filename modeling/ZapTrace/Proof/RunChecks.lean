import ZapTrace.Ee.DrcOrder
import ZapTrace.Library.Effects
import ZapTrace.Proof.Checker

/-!
# The checks of a proof pack, one after the other

`ProofRunner` runs the checks of a list on one design. Some of them replace the references of its routing by
identifiers, and others compare the references as they are written, so what a check reports can depend on the
checks before it.

What the checks call to analyse a design is a parameter. None of it reads net classes or changes the design; only
the analysis of signal integrity and the sections of the manufacturing check read the routing.
-/

set_option linter.unusedSectionVars false

namespace ZapTrace.Proof

open Plane Routing Routing.Drc

variable {K Ω Profile : Type}

/-! ## Requests and results -/

structure CheckRequest (K : Type) extends CheckDefinition K where
  net_name : String := ""
  expected_pins : List String := []
  profile : String := "jlcpcb-2layer"
  schematic_path : String := ""
  pcb_path : String := ""

/-- What is known of the pads of the nodes of the nets. -/
structure NetlistEvidence (K : Type) where
  node_count : ℕ
  missing_pcb_pad_node_count : ℕ
  /-- The nodes without a pad, for each net. -/
  missing_pcb_pad_nodes : List (List String)
  schematic_node_coverage : K
  pcb_pad_coverage : K

/-- The details of a result. An analysis has details of its own. -/
inductive Details (K Ω : Type)
  | none
  | drc (violations : List DRCViolation)
  | erc (violations : List Ω)
  | unrouted (unrouted_nets : List String)
  | clearance (details : ClearanceDetails K)
  | missing_footprints (refs : List String)
  | pads (evidence : NetlistEvidence K)
  | net (net : String) (missing_pins : List String)
  | kicad (violations : List Ω) (warnings errors : ℕ)
  | analysis (details : Ω)

structure Outcome (K Ω : Type) where
  status : CheckStatus
  message : String := ""
  details : Details K Ω := .none

/-- What an external run reports. -/
structure OracleResult (Ω : Type) where
  success : Bool
  errors : ℕ
  warnings : ℕ
  violations : List Ω
  message : String

/-- The sections of the manufacturing check, for a profile. Widths, clearances, vias, annular rings and the solder
mask are read from the routing. -/
structure DfmSections (K Ω Profile : Type) where
  freshness : Profile → List Ω
  board_dimensions : Profile → Design K → List Ω
  drill_holes : Profile → Design K → List Ω
  layer_count : Profile → Design K → List Ω
  silkscreen : Profile → Design K → List Ω
  assembly : Profile → Design K → List Ω
  special_features : Profile → Design K → List Ω
  trace_widths : Profile → Design K → List Ω
  clearances : Profile → Design K → List Ω
  vias : Profile → Design K → List Ω
  annular_ring : Profile → Design K → List Ω
  solder_mask : Profile → Design K → List Ω
  to_outcome : Profile → List Ω → Outcome K Ω

/-- What the checks call, and how numbers are written. -/
structure Analyses (K Ω Profile : Type) where
  fmt : Format K
  engine_fmt : EngineFormat K
  classifier : Classifier
  knowledge_base : Routing.Drc.KnowledgeBase K
  erc : Design K → List Ω
  /-- The name of the footprint of a component. -/
  footprint : Routing.Component K → String
  netlist_evidence : Design K → NetlistEvidence K
  spice : Design K → Outcome K Ω
  signal_integrity : Design K → Outcome K Ω
  thermal : Design K → Outcome K Ω
  load_profile : String → Option Profile
  dfm : DfmSections K Ω Profile
  /-- The command line of the external tool is there. -/
  oracle_available : Bool
  run_erc : String → OracleResult Ω
  run_drc : String → OracleResult Ω

/-! ## What the analyses read -/

def classless (design : Design K) : Design K := { design with net_classes := none }

def content (design : Design K) : Design K := { design with net_classes := none, routing := none }

/-- A design without its net classes and its vias. -/
def tracesOnly (design : Design K) : Design K :=
  { design with net_classes := none, routing := design.routing.map fun routing => { routing with vias := [] } }

variable [Field K] [LinearOrder K] (analyses : Analyses K Ω Profile)

/-- `DRCEngine()` -/
def Analyses.engine : DRCEngine K where
  fmt := analyses.engine_fmt
  classifier := analyses.classifier
  knowledge_base := analyses.knowledge_base

/-! ## The checks -/

/-- No more violations than expected. -/
def ExpectedOk (check : CheckRequest K) (count : ℕ) : Prop := ∀ expected ∈ check.expected_count, (count : ℤ) ≤ expected

instance (check : CheckRequest K) (count : ℕ) : Decidable (ExpectedOk check count) :=
  inferInstanceAs (Decidable (∀ expected ∈ check.expected_count, (count : ℤ) ≤ expected))

def passIf (p : Prop) [Decidable p] : CheckStatus := if p then .pass else .fail

/-- `_check_drc`. The engine leaves its changes in the design. -/
def checkDrc (design : Design K) (check : CheckRequest K) : Outcome K Ω × Design K :=
  ({ status := passIf (ExpectedOk check (analyses.engine.run design).1.violations.length)
     message := s!"{(analyses.engine.run design).1.violations.length} DRC violations found"
     details := .drc (analyses.engine.run design).1.violations },
    (analyses.engine.run design).2)

def checkErc (design : Design K) (check : CheckRequest K) : Outcome K Ω :=
  let violations := analyses.erc (content design)
  { status := passIf (ExpectedOk check violations.length)
    message := s!"{violations.length} ERC violations found"
    details := .erc violations }

/-- `_check_routed`. The references of the routing are replaced first. -/
def checkRouted (design : Design K) : Outcome K Ω × Design K :=
  let design := replaceRefs design
  let routed_nets := ((traceSegments design).map Routing.TraceSegment.net_id).filter fun net_id => net_id ≠ ""
  let unrouted := (design.nets.values.filter fun net => net.id ∉ routed_nets).map Routing.Net.name
  ({ status := passIf (unrouted = [])
     message := if unrouted = [] then "All nets routed" else s!"{unrouted.length} unrouted nets"
     details := .unrouted unrouted },
    design)

/-- `_check_clearance` -/
def clearanceOutcome (design : Design K) (check : CheckRequest K) : Outcome K Ω :=
  let result := checkClearance analyses.fmt design check.toCheckDefinition
  { status := result.status, message := result.message, details := .clearance result.details }

def checkFootprintExists (design : Design K) : Outcome K Ω :=
  let missing := (design.components.values.filter fun comp => analyses.footprint comp = "").map Routing.Component.ref
  { status := passIf (missing = [])
    message := if missing = [] then "All footprints found" else s!"{missing.length} missing footprints"
    details := .missing_footprints missing }

/-- `_check_footprint_pads_mapped`. The evidence is built after the references of the routing are replaced; what
the check reads of it does not depend on the routing. -/
def checkFootprintPadsMapped (design : Design K) : Outcome K Ω × Design K :=
  let evidence := analyses.netlist_evidence (content design)
  ({ status := passIf (0 < evidence.node_count ∧ evidence.missing_pcb_pad_node_count = 0)
     message := s!"{evidence.node_count - evidence.missing_pcb_pad_node_count}/{evidence.node_count} " ++
       "logical net nodes have resolved physical footprint pads"
     details := .pads evidence },
    replaceRefs design)

def connectedPins (net : Routing.Net K) : List String :=
  net.nodes.map Models.NetNode.pin_name ++
    (net.nodes.filter fun node => node.component_ref ≠ "").map fun node => s!"{node.component_ref}.{node.pin_name}"

def checkNetConnected (design : Design K) (check : CheckRequest K) : Outcome K Ω :=
  if check.net_name = "" then { status := .error, message := "net_name param required" }
  else
    match design.nets.values.find? fun net => net.name = check.net_name with
    | none => { status := .fail, message := s!"Net '{check.net_name}' not found" }
    | some net =>
      let missing := check.expected_pins.filter fun pin => pin ∉ connectedPins net
      { status := passIf (missing = [])
        message :=
          if missing = [] then s!"Net '{check.net_name}': all connections OK"
          else s!"Net '{check.net_name}': {missing.length} missing connections"
        details := .net check.net_name missing }

/-- `_check_dfm`. Each section that reads the routing replaces its references first, except for annular rings. -/
def checkDfm (design : Design K) (check : CheckRequest K) : Outcome K Ω × Design K :=
  match analyses.load_profile check.profile with
  | none => ({ status := .error, message := s!"DFM check failed: Profile not found: {check.profile}" }, design)
  | some profile =>
    let sections := analyses.dfm
    let first := replaceRefs design
    let second := replaceRefs first
    let third := replaceRefs second
    let fourth := replaceRefs third
    (sections.to_outcome profile
      (sections.freshness profile ++ sections.board_dimensions profile (content design) ++
        sections.trace_widths profile (classless first) ++ sections.clearances profile (classless second) ++
        sections.drill_holes profile (content design) ++ sections.vias profile (classless third) ++
        sections.layer_count profile (content design) ++ sections.annular_ring profile (classless third) ++
        sections.solder_mask profile (classless fourth) ++ sections.silkscreen profile (content design) ++
        sections.assembly profile (content design) ++ sections.special_features profile (content design)),
      fourth)

/-- `_check_kicad_erc` and `_check_kicad_drc` -/
def checkKicad (label parameter path : String) (run : String → OracleResult Ω) (check : CheckRequest K) :
    Outcome K Ω :=
  if path = "" then { status := .error, message := s!"{parameter} param required" }
  else if analyses.oracle_available = false then { status := .skip, message := "KiCad CLI not available" }
  else
    let result := run path
    if 0 < result.errors ∨ result.success = false then
      { status := .error
        message := if result.message = "" then s!"{result.errors} {label} errors" else result.message }
    else
      { status := passIf (ExpectedOk check result.violations.length)
        message := s!"{result.violations.length} KiCad {label} violations"
        details := .kicad result.violations result.warnings result.errors }

/-! ## Runs -/

/-- The types of the built-in checks. -/
inductive BuiltinCheck
  | drc | erc | routed | clearance | footprint_exists | footprint_pads_mapped | net_connected | spice
  | signal_integrity | thermal | kicad_erc | kicad_drc | dfm
  deriving DecidableEq

/-- The check that is registered under a type. -/
def registry : String → Option BuiltinCheck
  | "drc" => some .drc
  | "erc" => some .erc
  | "routed" => some .routed
  | "clearance" => some .clearance
  | "footprint_exists" => some .footprint_exists
  | "footprint_pads_mapped" => some .footprint_pads_mapped
  | "net_connected" => some .net_connected
  | "spice" => some .spice
  | "signal_integrity" => some .signal_integrity
  | "thermal" => some .thermal
  | "kicad_erc" => some .kicad_erc
  | "kicad_drc" => some .kicad_drc
  | "dfm" => some .dfm
  | _ => none

/-- A check by its registered function. -/
def runBuiltin (check : CheckRequest K) (design : Design K) : BuiltinCheck → Outcome K Ω × Design K
  | .drc => checkDrc analyses design check
  | .erc => (checkErc analyses design check, design)
  | .routed => checkRouted design
  | .clearance => (clearanceOutcome analyses design check, design)
  | .footprint_exists => (checkFootprintExists analyses design, design)
  | .footprint_pads_mapped => checkFootprintPadsMapped analyses design
  | .net_connected => (checkNetConnected design check, design)
  | .spice => (analyses.spice (content design), design)
  | .signal_integrity => (analyses.signal_integrity (tracesOnly design), design)
  | .thermal => (analyses.thermal (content design), design)
  | .kicad_erc => (checkKicad analyses "ERC" "schematic_path" check.schematic_path analyses.run_erc check, design)
  | .kicad_drc => (checkKicad analyses "DRC" "pcb_path" check.pcb_path analyses.run_drc check, design)
  | .dfm => checkDfm analyses design check

def outcomeOf (check : CheckRequest K) (design : Design K) : Outcome K Ω × Design K :=
  match registry check.type with
  | none => ({ status := .skip, message := s!"Unknown check type: {check.type}" }, design)
  | some builtin => runBuiltin analyses check design builtin

/-- `_run_single`, apart from the time that it takes -/
def runSingle (check : CheckRequest K) (design : Design K) : CheckResult K (Details K Ω) × Design K :=
  ({ check := check.toCheckDefinition
     status := (outcomeOf analyses check design).1.status
     message := (outcomeOf analyses check design).1.message
     details := (outcomeOf analyses check design).1.details },
    (outcomeOf analyses check design).2)

def runChecks (checks : List (CheckRequest K)) (design : Design K) : List (CheckResult K (Details K Ω)) × Design K :=
  Effects.runAll (runSingle analyses) checks design

/-- In every order of the list, each check has the result that it has alone, and the same design is left. -/
def OrderIndependent (checks : List (CheckRequest K)) (design : Design K) : Prop :=
  ∀ order, order.Perm checks →
    (runChecks analyses order design).1 = order.map (fun check => (runSingle analyses check design).1) ∧
      (runChecks analyses order design).2 = (runChecks analyses checks design).2

end ZapTrace.Proof
