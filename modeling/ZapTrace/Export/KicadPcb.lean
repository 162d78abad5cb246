import ZapTrace.Export.Layers
import ZapTrace.Export.Schematic
import ZapTrace.Export.VerifiedFootprint

/-!
# The board file of the KiCad export

The text of a board is written line by line: the settings, the layers, the nets, the outline, the mounting holes,
the footprints, the tracks and the zones. A line that has an identity has it from a seed, a text that names the
element. Names of nets, references and identifiers of pads stand in quotes as they are; only the value of a
component is escaped.

How numbers and texts are written and the digests that identities are made of are parameters.
-/

namespace ZapTrace.KicadPcb

open VerifiedFootprint

open Kicad (schematicString)
open Routing.Export (kicadLayerName layerName)
open VerifiedFootprint (Vendor)

/-- What the export takes from elsewhere. -/
structure Runtime where
  vendor : Vendor
  /-- `str` of a float. -/
  float : ℚ → String
  /-- `_uuid4` of a seed. -/
  uuid4 : String → String
  /-- `uuid.uuid5` in the namespace of schematics. -/
  uuid5 : String → String

/-- A line of the file, with the seeds of the identities in it. -/
structure Line where
  text : String
  seeds : List String := []

def line (text : String) : Line := { text }

section

variable (rt : Runtime)

def uuidLine (indent seed : String) : Line where
  text := indent ++ "(uuid \"" ++ rt.uuid4 seed ++ "\")"
  seeds := [seed]

/-- `str` of a pair. -/
def pairText (pair : ℚ × ℚ) : String := "(" ++ rt.float pair.1 ++ ", " ++ rt.float pair.2 ++ ")"

/-- `str` of the tuple of a via. -/
def viaText : Schema.Via → String
  | .four x y diameter hole =>
    "(" ++ rt.float x ++ ", " ++ rt.float y ++ ", " ++ rt.float diameter ++ ", " ++ rt.float hole ++ ")"
  | .five x y diameter hole net =>
    "(" ++ rt.float x ++ ", " ++ rt.float y ++ ", " ++ rt.float diameter ++ ", " ++ rt.float hole ++ ", " ++
      rt.vendor.repr net ++ ")"

/-! ## Boards and nets -/

/-- `canonical_board_definition`: a legacy board is converted. -/
def canonicalBoardDefinition (design : Schema.Design) : Schema.BoardDefinition :=
  match design.board_def with
  | some board_def => board_def
  | none =>
    { width := design.board.width_mm, height := design.board.height_mm, layers := design.board.layers }

/-- The number of layers of the board. None of the names depends on a number below zero. -/
def numLayers (design : Schema.Design) : ℕ := (canonicalBoardDefinition design).layers.toNat

def copperLayers (num_layers : ℕ) : List String := (List.range num_layers).map fun i => layerName i num_layers

def copperLayerIds (num_layers : ℕ) : List ℕ :=
  if num_layers ≤ 1 then [0] else [0] ++ (List.range (num_layers - 2)).map (fun i => 4 + 2 * i) ++ [2]

def buildLayers (num_layers : ℕ) : List Line :=
  [line "  (layers"] ++
  ((copperLayerIds num_layers).zip (copperLayers (max num_layers 2))).map (fun (layer_id, name) =>
    line ("    (" ++ toString layer_id ++ " \"" ++ name ++ "\" signal)")) ++
  [line "    (9 \"F.Adhes\" user \"F.Adhesive\")",
    line "    (11 \"B.Adhes\" user \"B.Adhesive\")",
    line "    (13 \"F.Paste\" user)",
    line "    (15 \"B.Paste\" user)",
    line "    (5 \"F.SilkS\" user \"F.Silkscreen\")",
    line "    (7 \"B.SilkS\" user \"B.Silkscreen\")",
    line "    (1 \"F.Mask\" user)",
    line "    (3 \"B.Mask\" user)",
    line "    (17 \"Dwgs.User\" user \"User.Drawings\")",
    line "    (19 \"Cmts.User\" user \"User.Comments\")",
    line "    (21 \"Eco1.User\" user \"User.Eco1\")",
    line "    (23 \"Eco2.User\" user \"User.Eco2\")",
    line "    (25 \"Edge.Cuts\" user)",
    line "    (27 \"Margin\" user)",
    line "    (31 \"F.CrtYd\" user \"F.Courtyard\")",
    line "    (29 \"B.CrtYd\" user \"B.Courtyard\")",
    line "    (35 \"F.Fab\" user)",
    line "    (33 \"B.Fab\" user)",
    line "  )"]

/-- `_net_index`: the numbers of the nets by their identifiers. The number 0 is for what is not connected. -/
def netIndex (design : Schema.Design) : Dict String ℕ :=
  design.nets.values.zipIdx.foldl (fun index (net, i) => index.set net.id (i + 1)) Dict.empty

def netNumber (design : Schema.Design) (net_id : String) : ℕ := ((netIndex design).get? net_id).getD 0

def buildNetsList (design : Schema.Design) : List Line :=
  let exprs := design.nets.values.zipIdx.map fun (net, i) =>
    line ("  (net " ++ toString (i + 1) ++ " \"" ++ net.name.val ++ "\")")
  if exprs = [] then [line "  (net 0 \"\")"] else exprs

/-- `_net_name`: the name of the first net whose identifier is first at this number. -/
def netName (design : Schema.Design) (net_num : ℕ) : String :=
  match design.nets.values.find? fun net =>
      design.nets.values.findIdx (fun other => other.id = net.id) + 1 = net_num with
  | some net => net.name.val
  | none => ""

def NamesPin (component : Schema.Component) (pin_name : String) (node : Schema.NetNode) : Prop :=
  (node.component_ref = component.id ∨ node.component_ref = component.ref) ∧ node.pin_name = pin_name

instance (component : Schema.Component) (pin_name : String) (node : Schema.NetNode) :
    Decidable (NamesPin component pin_name node) := inferInstanceAs (Decidable (_ ∧ _))

/-- `_pin_net_number`: the number of the net of a pad. -/
def pinNetNumber (design : Schema.Design) (component : Schema.Component) (pad_id : String) : ℕ :=
  match logicalPin component pad_id with
  | none => 0
  | some pin_name =>
    match (component.pins.get? pin_name).bind Schema.Pin.net with
    | some net_id => netNumber design net_id
    | none =>
      match design.nets.values.find? fun net => ∃ node ∈ net.nodes, NamesPin component pin_name node with
      | some net => netNumber design net.id
      | none => 0

/-! ## Outline and mounting holes -/

def outlineSeed (design : Schema.Design) : String := design.meta.name ++ "-outline"

def buildBoardOutline (design : Schema.Design) : List Line :=
  let board := canonicalBoardDefinition design
  [line "  (gr_rect",
    line "    (start 0 0)",
    line ("    (end " ++ rt.float board.width ++ " " ++ rt.float board.height ++ ")"),
    line "    (stroke (width 0.1) (type default))",
    line "    (fill none)",
    line "    (layer \"Edge.Cuts\")",
    uuidLine rt "    " (outlineSeed design),
    line "  )"]

def mountingHoles (design : Schema.Design) : List Schema.MountingHole :=
  match design.board_def with
  | some board_def => board_def.mounting_holes
  | none => []

def buildMountingHole (mh : Schema.MountingHole) : List Line :=
  let diameter := rt.float mh.diameter
  [line "  (footprint \"MountingHole\"",
    line "    (layer \"F.Cu\")",
    uuidLine rt "    " ("mounting-hole-" ++ pairText rt mh.position),
    line ("    (at " ++ rt.float mh.position.1 ++ " " ++ rt.float mh.position.2 ++ " 0)"),
    line ("    (descr \"Mounting hole ∅" ++ diameter ++ " mm\")"),
    line "    (pad \"\" np_thru_hole circle",
    line "      (at 0 0)",
    line ("      (size " ++ diameter ++ " " ++ diameter ++ ")"),
    line ("      (drill " ++ rt.float (mh.diameter * 0.9) ++ ")"),
    line "      (layers \"*.Cu\" \"*.Mask\")",
    uuidLine rt "      " ("mh-" ++ pairText rt mh.position ++ "-pad"),
    line "    )",
    line "  )"]

/-! ## Footprints -/

def componentPosition (design : Schema.Design) (component : Schema.Component) : Option (ℚ × ℚ) :=
  match component.position, design.placement with
  | some position, _ => some position
  | none, some placement => (placement.get? component.id).or (placement.get? component.ref)
  | none, none => none

def padShapeKicad : Schema.PadShape → String
  | .rect => "rect"
  | .circle => "circle"
  | .oval => "oval"
  | .roundrect => "roundrect"
  | .custom => "custom"

def surfaceLayers (pad : Schema.Pad) : String :=
  match pad.layer, pad.solder_paste with
  | .bottom, true => "\"B.Cu\" \"B.Paste\" \"B.Mask\""
  | .bottom, false => "\"B.Cu\" \"B.Mask\""
  | .all, _ => "\"*.Cu\" \"*.Mask\""
  | _, true => "\"F.Cu\" \"F.Paste\" \"F.Mask\""
  | _, false => "\"F.Cu\" \"F.Mask\""

def holeLayers (pad : Schema.Pad) : String :=
  (if pad.plated then "\"*.Cu\" \"*.Mask\"" else "\"F&B.Cu\" \"*.Mask\"") ++
    if pad.solder_paste then " \"F.Paste\"" else ""

def hasHole (pad : Schema.Pad) : Bool := pad.drill.isSome || pad.drill_slot.isSome

def padType (pad : Schema.Pad) : String :=
  if hasHole pad then if pad.plated then "thru_hole" else "np_thru_hole" else "smd"

def padLayers (pad : Schema.Pad) : String := if hasHole pad then holeLayers pad else surfaceLayers pad

def padDrill (pad : Schema.Pad) : List Line :=
  match pad.drill_slot, pad.drill with
  | some slot, _ => [line ("      (drill oval " ++ rt.float slot.val.1 ++ " " ++ rt.float slot.val.2 ++ ")")]
  | none, some drill => [line ("      (drill " ++ rt.float drill ++ ")")]
  | none, none => []

def padRoundrect (pad : Schema.Pad) : List Line :=
  match pad.shape, pad.roundrect_rratio with
  | .roundrect, some rratio => [line ("      (roundrect_rratio " ++ rt.float rratio ++ ")")]
  | _, _ => []

def padNet (design : Schema.Design) (net_num : ℕ) : List Line :=
  if 0 < net_num then
    if netName design net_num ≠ "" then
      [line ("      (net " ++ toString net_num ++ " \"" ++ netName design net_num ++ "\")")]
    else [line ("      (net " ++ toString net_num ++ ")")]
  else []

def padSeed (component : Schema.Component) (pad : Schema.Pad) (pad_ordinal : ℕ) : String :=
  "pad-" ++ component.ref ++ "-" ++ pad.id ++ "-" ++ toString pad_ordinal

def buildPad (design : Schema.Design) (component : Schema.Component) (entry : Schema.Pad × ℕ) :
    Except String (List Line) :=
  let (pad, pad_ordinal) := entry
  if pad.drill.isSome ∧ pad.drill_slot.isSome then
    .error ("Ambiguous round/oval drill on " ++ rt.vendor.repr pad.id)
  else
    .ok ([line ("    (pad \"" ++ pad.id ++ "\" " ++ padType pad ++ " " ++ padShapeKicad pad.shape),
        line ("      (at " ++ rt.float pad.position.1 ++ " " ++ rt.float pad.position.2 ++ " " ++
          rt.float pad.rotation ++ ")"),
        line ("      (size " ++ rt.float pad.size.1 ++ " " ++ rt.float pad.size.2 ++ ")")] ++
      padDrill rt pad ++
      [line ("      (layers " ++ padLayers pad ++ ")")] ++
      padRoundrect rt pad ++
      padNet design (pinNetNumber design component pad.id) ++
      [uuidLine rt "      " (padSeed component pad pad_ordinal),
        line "    )"])

def symbolPath (design : Schema.Design) (component : Schema.Component) : String :=
  "/" ++ rt.uuid5 ("|".intercalate [design.meta.name, design.meta.version, "symbol", component.ref])

def footprintPads (component : Schema.Component) : List Schema.Pad :=
  (component.footprint_def.map Schema.FootprintDef.pads).getD []

def footprintLines (design : Schema.Design) (component : Schema.Component) (origin : ℚ × ℚ) : List Line :=
  let type := if component.type = "" then "unknown" else component.type
  let description := (component.footprint_def.map Schema.FootprintDef.description).getD ""
  [line ("  (footprint \"zaptrace:" ++ type ++ "\""),
    line "    (layer \"F.Cu\")",
    uuidLine rt "    " ("footprint-" ++ component.ref),
    line ("    (path \"" ++ symbolPath rt design component ++ "\")"),
    line ("    (at " ++ rt.float origin.1 ++ " " ++ rt.float origin.2 ++ " 0)"),
    line ("    (property \"Reference\" \"" ++ component.ref ++ "\""),
    line "      (at 0 -2 0)",
    line "      (layer \"F.SilkS\")",
    uuidLine rt "      " ("fp-" ++ component.ref ++ "-ref-prop"),
    line "      (effects (font (size 1 1) (thickness 0.15)))",
    line "    )",
    line ("    (property \"Value\" \"" ++ schematicString (nativeValue component) ++ "\""),
    line "      (at 0 3 0)",
    line "      (layer \"F.Fab\")",
    uuidLine rt "      " ("fp-" ++ component.ref ++ "-val-prop"),
    line "      (effects (font (size 1 1) (thickness 0.15)))",
    line "    )",
    line "    (property \"Description\" \"ZapTrace generated connectivity symbol\"",
    line "      (at 0 0 0)",
    line "      (layer \"F.Fab\")",
    line "      (hide yes)",
    line "    )",
    line ("    (property \"Footprint\" \"" ++ description ++ "\""),
    line ("      (at " ++ rt.float origin.1 ++ " " ++ rt.float origin.2 ++ " 0)"),
    line "      (layer \"F.Fab\")",
    line "      (hide yes)",
    line "    )"]

def vendorInstance (design : Schema.Design) (component : Schema.Component) (origin : ℚ × ℚ) :
    VerifiedFootprint.Instance where
  component := component
  origin := origin
  copper_layers := copperLayers (numLayers design)
  schematic_symbol_path := symbolPath rt design component
  pin_net_number := pinNetNumber design component
  net_name := netName design

/-- A text that goes on over several lines of the file. -/
def indented (text : Text) : Text :=
  "  ".toList ++ text.flatMap fun c => if c = '\n' then "\n  ".toList else [c]

def buildVendorFootprint (design : Schema.Design) (component : Schema.Component) (origin : ℚ × ℚ)
    (asset : String) : Except String (List Line) :=
  match rt.vendor.assetError component with
  | some message => .error message
  | none => do
    let (footprint, seeds) ← renderVerifiedFootprint rt.vendor rt.uuid4
      (vendorInstance rt design component origin) rt.float asset
    return [{ text := .ofList (indented (← kicadFormat footprint 0)), seeds }]

def buildFootprint (design : Schema.Design) (component : Schema.Component) (origin : ℚ × ℚ) :
    Except String (List Line) :=
  let asset := component.footprint_asset.getD ""
  if asset ≠ "" then buildVendorFootprint rt design component origin asset
  else do
    let pads ← (footprintPads component).zipIdx.mapM (buildPad rt design component)
    return footprintLines rt design component origin ++ pads.flatten ++ [line "  )"]

def placedFootprint (design : Schema.Design) (component : Schema.Component) : Except String (List Line) :=
  match componentPosition design component with
  | none => .ok []
  | some origin => buildFootprint rt design component origin

/-! ## Tracks -/

/-- `canonical_net_id`: the net that a reference names. -/
def canonicalNetId (design : Schema.Design) (ref : String) : Option String :=
  if ref = "" then none
  else if ref ∈ design.nets.keys then some ref
  else
    match (design.nets.values.filter fun net => net.name.val = ref).map Schema.Net.id with
    | [id] => some id
    | _ => none

/-- A trace with its net by the identifier. -/
def normalizeTrace (design : Schema.Design) (trace : Schema.TraceSegment) : Schema.TraceSegment :=
  { trace with net_id := (canonicalNetId design trace.net_id).getD trace.net_id }

/-- A via with its net by the identifier. -/
def normalizeVia (design : Schema.Design) : Schema.Via → Schema.Via
  | .four x y diameter hole => .four x y diameter hole
  | .five x y diameter hole net => .five x y diameter hole ((canonicalNetId design net).getD net)

def segmentSeed (seg : Schema.TraceSegment) : String :=
  "seg-" ++ pairText rt seg.start ++ "-" ++ pairText rt seg.end ++ "-" ++ seg.net_id

/-- A trace of a net of the design. -/
def buildSegment (design : Schema.Design) (seg : Schema.TraceSegment) : List Line :=
  let net_num := netNumber design seg.net_id
  if net_num = 0 then []
  else
    [line "  (segment",
      line ("    (start " ++ rt.float seg.start.1 ++ " " ++ rt.float seg.start.2 ++ ")"),
      line ("    (end " ++ rt.float seg.end.1 ++ " " ++ rt.float seg.end.2 ++ ")"),
      line ("    (width " ++ rt.float seg.width ++ ")"),
      line ("    (layer \"" ++ kicadLayerName seg.layer (numLayers design) ++ "\")"),
      line ("    (net " ++ toString net_num ++ ")"),
      uuidLine rt "    " (segmentSeed rt seg),
      line "  )"]

/-- The net, the position, the diameter and the hole of a via. -/
def viaParts : Schema.Via → String × ℚ × ℚ × ℚ × ℚ
  | .four x y diameter hole => ("", x, y, diameter, hole)
  | .five x y diameter hole net => (net, x, y, diameter, hole)

def viaLayers (num_layers : ℕ) : String :=
  if 2 < num_layers then
    "\"F.Cu\" " ++
      " ".intercalate ((List.range (num_layers - 2)).map fun i => "\"In" ++ toString (i + 1) ++ ".Cu\"") ++
      " \"B.Cu\""
  else "\"F.Cu\" \"B.Cu\""

def viaSeed (via : Schema.Via) : String := "via-" ++ viaText rt via

def buildVia (design : Schema.Design) (via : Schema.Via) : List Line :=
  let (via_net_id, x, y, diameter, hole) := viaParts via
  let net_num := if via_net_id = "" then 0 else netNumber design via_net_id
  [line "  (via",
    line ("    (at " ++ rt.float x ++ " " ++ rt.float y ++ ")"),
    line ("    (size " ++ rt.float diameter ++ ")"),
    line ("    (drill " ++ rt.float hole ++ ")"),
    line ("    (layers " ++ viaLayers (numLayers design) ++ ")"),
    line ("    (net " ++ toString net_num ++ ")"),
    uuidLine rt "    " (viaSeed rt via),
    line "  )"]

def normalizedTraces (design : Schema.Design) : List Schema.TraceSegment :=
  match design.routing with
  | none => []
  | some routing => routing.traces.map (normalizeTrace design)

def normalizedVias (design : Schema.Design) : List Schema.Via :=
  match design.routing with
  | none => []
  | some routing => routing.vias.map (normalizeVia design)

/-! ## Zones -/

def zoneSeed (area : Schema.CopperPourArea) : String := "zone-" ++ area.net_id ++ "-" ++ area.layer

/-- The zone of a pour that has a polygon. -/
def buildZone (design : Schema.Design) (area : Schema.CopperPourArea) : List Line :=
  if area.polygon.length < 3 then []
  else
    [line "  (zone",
      line ("    (net " ++ toString (netNumber design area.net_id) ++ ")"),
      line ("    (net_name \"" ++ area.net_id ++ "\")"),
      line ("    (layer \"" ++ area.layer ++ "\")"),
      uuidLine rt "    " (zoneSeed area),
      line "    (hatch edge 0.5)",
      line "    (connect_pads (clearance 0.25))",
      line "    (min_thickness 0.25)",
      line "    (filled_areas_thickness no)",
      line "    (fill (thermal_gap 0.5) (thermal_bridge_width 0.5))",
      line "    (polygon",
      line "      (pts"] ++
    area.polygon.map (fun pt => line ("        (xy " ++ rt.float pt.1 ++ " " ++ rt.float pt.2 ++ ")")) ++
    [line "      )",
      line "    )",
      line "  )"]

/-! ## Boards -/

/-- The lines before the nets. -/
def pcbHeader (design : Schema.Design) : List Line :=
  [line "(kicad_pcb",
    line "  (version 20241229)",
    line "  (generator \"zaptrace\")",
    line ("  (generator_version \"" ++ design.meta.version ++ "\")"),
    line "  (general",
    line "    (thickness 1.6)",
    line "    (legacy_teardrops no)",
    line "  )",
    line "  (paper \"A4\")",
    line "  (title_block",
    line ("    (title \"" ++ design.meta.name ++ "\")"),
    line ("    (rev \"" ++ design.meta.version ++ "\")")] ++
  (if design.meta.author ≠ "" then [line ("    (company \"" ++ design.meta.author ++ "\")")] else []) ++
  [line "  )"] ++
  buildLayers (numLayers design) ++
  [line "  (setup",
    line "    (via_size 0.6)",
    line "    (via_drill 0.3)",
    line "    (uvia_size 0.3)",
    line "    (uvia_drill 0.1)",
    line "  )"]

/-- `_build_pcb`: the lines of a board. -/
def buildPcb (design : Schema.Design) : Except String (List Line) := do
  let footprints ← design.components.values.mapM (placedFootprint rt design)
  return pcbHeader design ++ buildNetsList design ++ buildBoardOutline rt design ++
    (mountingHoles design).flatMap (buildMountingHole rt) ++ footprints.flatten ++
    (normalizedTraces design).flatMap (buildSegment rt design) ++
    (normalizedVias design).flatMap (buildVia rt design) ++
    design.copper_pours.values.flatMap (buildZone rt design) ++ [line ")"]

end

def pcbText (lines : List Line) : String := "\n".intercalate (lines.map Line.text)

/-- The identities in a file. -/
def pcbUuids (rt : Runtime) (lines : List Line) : List String := (lines.flatMap Line.seeds).map rt.uuid4

end ZapTrace.KicadPcb
