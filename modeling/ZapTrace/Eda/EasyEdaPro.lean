import Mathlib.Algebra.GroupWithZero.Nat
import Mathlib.Data.Int.Notation
import Mathlib.Data.List.Sort
import ZapTrace.Core.Models
import ZapTrace.Library.PyValue

/-!
# EasyEDA Pro projects

The writer takes the attributes of the objects of a design by name, with a default for a name that an object does
not have, and writes one record a line; the reader makes records of its own from the lines. Reading counts what
it cannot use, and so does writing: a design is accepted when no element was left out.

JSON and ZIP are taken to be lossless. A line is its text with the value that it stands for; blank lines are no
lines. How values are written, and how texts are read as numbers, are parameters.
-/

namespace ZapTrace.EasyEdaPro

/-- What the module uses of the runtime. -/
structure Runtime where
  /-- `str(value)` of a value that is no text. -/
  str : PyValue → String
  /-- `float(text)`, `int(text)` -/
  parseFloat : String → Option ℚ
  parseInt : String → Option ℤ
  /-- `json.dumps(record, sort_keys=True)` -/
  dumps : PyValue → String
  /-- `json.dumps(project_meta, indent=2, sort_keys=True)` -/
  dumpsIndented : PyValue → String
  /-- The archive cannot be written: a member is too large for it. -/
  refuses : List ℕ → Bool

variable (rt : Runtime)

/-! ## The design, as far as the writer reads it -/

structure DesignMeta where
  name : String
  version : String := "0.1.0"
  author : String := ""

structure Component where
  ref : String
  value : Option String := none
  footprint : String := ""
  mpn : Option String := none
  position : Option (ℚ × ℚ) := none

/-- A net; its name is not blank. -/
structure Net where
  id : String
  name : String
  nodes : List Models.NetNode := []
  name_ne : pyStrip name ≠ ""

structure TraceSegment where
  layer : String
  start : ℚ × ℚ
  stop : ℚ × ℚ
  width : ℚ := 1 / 5
  net_id : String := ""

/-- A via is a tuple. -/
structure Via where
  x : ℚ
  y : ℚ
  diameter : ℚ
  hole : ℚ
  net_id : Option String := none

structure RouteResult where
  traces : List TraceSegment := []
  vias : List Via := []

structure Design where
  info : DesignMeta
  components : Dict String Component := .empty
  nets : Dict String Net := .empty
  /-- The identifiers of the blocks. -/
  blocks : List String := []
  routing : Option RouteResult := none
  /-- The nets with an area of copper pour. -/
  copper_pours : List String := []

/-! ## Attributes by name -/

/-- `getattr(object, name, default)`, from the attributes that the object has. -/
def getattr (attributes : List (String × PyValue)) (name : String) (default : PyValue) : PyValue :=
  (attributes.lookup name).getD default

def pair (p : ℚ × ℚ) : PyValue := .tuple [.float p.1, .float p.2]

def nodeAttributes (node : Models.NetNode) : List (String × PyValue) :=
  [("component_ref", .str node.component_ref), ("pin_name", .str node.pin_name)]

def traceAttributes (trace : TraceSegment) : List (String × PyValue) :=
  [("layer", .str trace.layer), ("start", pair trace.start), ("end", pair trace.stop), ("width", .float trace.width),
    ("net_id", .str trace.net_id)]

/-- A tuple has none of the attributes that the writer asks for. -/
def viaAttributes (_ : Via) : List (String × PyValue) := []

/-- `str(value)` -/
def toText : PyValue → String
  | .str s => s
  | v => rt.str v

/-- `float(value)` -/
def toFloat : PyValue → Option ℚ
  | .str s => rt.parseFloat s
  | v => v.number?

/-- `int(value)` -/
def toInt : PyValue → Option ℤ
  | .str s => rt.parseInt s
  | v => v.number?.map fun q => if 0 ≤ q then q.floor else q.ceil

/-! ## Files -/

/-- A line: its text, and the value that it stands for, if it is JSON. -/
structure Line where
  text : String
  value : Option PyValue

/-- A member of the archive, with its length in bytes. -/
structure Member where
  name : String
  lines : List Line
  size : ℕ

def recordLine (record : PyValue) : Line := ⟨rt.dumps record, some record⟩

/-- A document with one line for each record. -/
def jsonlMember (name : String) (records : List PyValue) : Member where
  name := name
  lines := records.map (recordLine rt)
  size := (records.map fun record => (rt.dumps record).utf8ByteSize + 1).sum

def record (items : List (String × PyValue)) : PyValue := .dict (items.map fun item => (.str item.1, item.2))

/-! ## The writer -/

inductive FindingCategory
  | represented | transformed | unsupported
  deriving DecidableEq

structure EasyEdaWriteFinding where
  category : FindingCategory
  element : String
  detail : String := ""

structure EasyEdaWriteDegradationReport where
  represented_count : ℕ := 0
  transformed_count : ℕ := 0
  unsupported_count : ℕ := 0
  findings : List EasyEdaWriteFinding := []

namespace EasyEdaWriteDegradationReport

variable (report : EasyEdaWriteDegradationReport)

/-- No element was left out. -/
def accepted : Prop := report.unsupported_count = 0

def add (category : FindingCategory) (element : String) (detail : String) : EasyEdaWriteDegradationReport :=
  let finding : EasyEdaWriteFinding := ⟨category, element, detail⟩
  let report := { report with findings := report.findings ++ [finding] }
  match category with
  | .represented => { report with represented_count := report.represented_count + 1 }
  | .transformed => { report with transformed_count := report.transformed_count + 1 }
  | .unsupported => { report with unsupported_count := report.unsupported_count + 1 }

def represented (element : String) : EasyEdaWriteDegradationReport := report.add .represented element ""

def unsupported (element detail : String) : EasyEdaWriteDegradationReport := report.add .unsupported element detail

end EasyEdaWriteDegradationReport

def formatVersion : String := "2.0.0"

def sortedItems {α : Type} (d : Dict String α) : List (String × α) :=
  d.items.mergeSort fun item item' => decide (item.1 ≤ item'.1)

/-- `getattr(comp, "position", None) or (0.0, 0.0)` -/
def Component.at (comp : Component) : ℚ × ℚ := comp.position.getD (0, 0)

def componentRecord (comp_id : String) (comp : Component) : PyValue :=
  record [("type", .str "COMPONENT"), ("id", .str comp_id), ("ref", .str comp.ref), ("value", .str (comp.value.getD "")),
    ("package", .str comp.footprint), ("mpn", .str (comp.mpn.getD "")), ("x", .float comp.at.1), ("y", .float comp.at.2)]

/-- A pin of a net, from the attributes `component_id` and `pin`. -/
def pinRecord (node : Models.NetNode) : PyValue :=
  record [("component", .str (toText rt (getattr (nodeAttributes node) "component_id" (.str "")))),
    ("pin", .str (toText rt (getattr (nodeAttributes node) "pin" (.str ""))))]

def Net.label (net_id : String) (net : Net) : String := if net.name = "" then net_id else net.name

def netRecord (net_id : String) (net : Net) : PyValue :=
  record [("type", .str "NET"), ("id", .str net_id), ("name", .str (net.label net_id)),
    ("pins", .list (net.nodes.map (pinRecord rt)))]

def header : PyValue :=
  record [("type", .str "HEADER"), ("version", .str formatVersion), ("generator", .str "zaptrace")]

def canvas : PyValue := record [("type", .str "CANVAS"), ("width", .int 1000), ("height", .int 800)]

def schematicRecords (design : Design) : List PyValue :=
  [header, canvas] ++ (sortedItems design.components).map (fun item => componentRecord item.1 item.2) ++
    (sortedItems design.nets).map fun item => netRecord rt item.1 item.2

def buildSchematicJsonl (design : Design) (report : EasyEdaWriteDegradationReport) :
    Member × EasyEdaWriteDegradationReport :=
  let report := (sortedItems design.components).foldl (fun report item =>
    report.represented s!"component {item.2.ref}") report
  let report := (sortedItems design.nets).foldl (fun report item =>
    report.represented s!"net {item.2.label item.1}") report
  let report := design.blocks.foldl (fun report blk_id =>
    report.unsupported s!"block {blk_id}" "EasyEDA Pro JSONL does not support block groupings") report
  (jsonlMember rt "schematic.jsonl" (schematicRecords rt design), report)

/-- The layers of every board: number, name and colour. -/
def layerMap : List (ℤ × String × String) :=
  [(1, "TopCopper", "#FF0000"), (2, "BottomCopper", "#0000FF"), (3, "TopSilkscreen", "#FFFF00"),
    (4, "BottomSilkscreen", "#00FFFF"), (11, "BoardOutline", "#FFAA00")]

def layerRecord (lyr : ℤ × String × String) : PyValue :=
  record [("type", .str "LAYER"), ("id", .int lyr.1), ("name", .str lyr.2.1), ("color", .str lyr.2.2)]

def footprintRecord (comp : Component) : PyValue :=
  record [("type", .str "FOOTPRINT"), ("ref", .str comp.ref), ("package", .str comp.footprint),
    ("x", .float comp.at.1), ("y", .float comp.at.2), ("rotation", .float 0)]

/-- `float(getattr(object, name, default))` for an attribute that is a number or missing. -/
def floatAttr (attributes : List (String × PyValue)) (name : String) (default : ℚ) : ℚ :=
  (toFloat rt (getattr attributes name (.float default))).getD default

/-- The net of a trace, from the attribute `net`. -/
def traceNet (trace : TraceSegment) : String := toText rt (getattr (traceAttributes trace) "net" (.str ""))

/-- A trace, from the attributes `net`, `x1`, `y1`, `x2`, `y2` and `width`; the layer is 1. -/
def trackRecord (trace : TraceSegment) : PyValue :=
  let attributes := traceAttributes trace
  record [("type", .str "TRACK"), ("layer", .int 1), ("net", .str (traceNet rt trace)),
    ("x1", .float (floatAttr rt attributes "x1" 0)), ("y1", .float (floatAttr rt attributes "y1" 0)),
    ("x2", .float (floatAttr rt attributes "x2" 0)), ("y2", .float (floatAttr rt attributes "y2" 0)),
    ("width", .float (floatAttr rt attributes "width" (1 / 5)))]

/-- A via, from the attributes `x` and `y`; the diameters are fixed. -/
def viaRecord (via : Via) : PyValue :=
  let attributes := viaAttributes via
  record [("type", .str "VIA"), ("x", .float (floatAttr rt attributes "x" 0)), ("y", .float (floatAttr rt attributes "y" 0)),
    ("outerDiameter", .float (4 / 5)), ("innerDiameter", .float (2 / 5))]

def Design.traces (design : Design) : List TraceSegment :=
  match design.routing with
  | none => []
  | some routing => routing.traces

def Design.vias (design : Design) : List Via :=
  match design.routing with
  | none => []
  | some routing => routing.vias

def pcbRecords (design : Design) : List PyValue :=
  [header] ++ layerMap.map layerRecord ++
    (sortedItems design.components).map (fun item => footprintRecord item.2) ++
    design.traces.map (trackRecord rt) ++ design.vias.map (viaRecord rt)

def buildPcbJsonl (design : Design) (report : EasyEdaWriteDegradationReport) : Member × EasyEdaWriteDegradationReport :=
  let report := layerMap.foldl (fun report lyr => report.represented s!"layer {lyr.2.1}") report
  let report := (sortedItems design.components).foldl (fun report item =>
    report.represented s!"footprint {item.2.ref}") report
  let report := design.traces.foldl (fun report trace =>
    report.represented s!"track net={traceNet rt trace}") report
  let report := design.vias.foldl (fun report via =>
    let x := rt.str (.float (floatAttr rt (viaAttributes via) "x" 0))
    let y := rt.str (.float (floatAttr rt (viaAttributes via) "y" 0))
    report.represented s!"via at ({x},{y})") report
  let report := (design.copper_pours.mergeSort fun a b => decide (a ≤ b)).foldl (fun report pour_id =>
    report.unsupported s!"copper_pour {pour_id}" "EasyEDA Pro JSONL does not support copper pours") report
  (jsonlMember rt "pcb.jsonl" (pcbRecords rt design), report)

/-- The record of `project.json`. -/
def projectMeta (design : Design) (project_name source_provenance : String) : PyValue :=
  let name := if project_name ≠ "" then project_name else if design.info.name ≠ "" then design.info.name else "untitled"
  record ([("name", .str name), ("formatVersion", .str formatVersion), ("sourceProvenance", .str source_provenance),
    ("generator", .str "zaptrace")] ++
    (if design.info.version ≠ "" then [("version", .str design.info.version)] else []) ++
    (if design.info.author ≠ "" then [("author", .str design.info.author)] else []))

/-- The members of the archive and the report; nothing when the archive cannot be written. -/
def writeEasyedaProZip (design : Design) (project_name source_provenance : String) :
    Option (List Member × EasyEdaWriteDegradationReport) :=
  let project_meta := projectMeta design project_name source_provenance
  let report := EasyEdaWriteDegradationReport.represented {} "project metadata"
  let (schematic, report) := buildSchematicJsonl rt design report
  let (pcb, report) := buildPcbJsonl rt design report
  let project : Member :=
    ⟨"project.json", [⟨rt.dumpsIndented project_meta, some project_meta⟩], (rt.dumpsIndented project_meta).utf8ByteSize⟩
  let members := [project, schematic, pcb]
  if rt.refuses (members.map Member.size) then none else some (members, report)

/-! ## The reader -/

def maxUncompressedBytes : ℕ := 50 * 1024 * 1024

def maxJsonlLineBytes : ℕ := 1 * 1024 * 1024

structure EasyEdaDegradationRecord where
  record_type : PyValue
  document : String
  line_index : ℕ
  severity : String := "info"
  raw : String := ""

structure EasyEdaComponent where
  id : String
  ref : String
  value : String := ""
  package : String := ""
  mpn : String := ""
  x : ℚ := 0
  y : ℚ := 0

structure EasyEdaNet where
  id : String
  name : String
  /-- The component and the pin of each node. -/
  pins : List (String × String) := []
  deriving DecidableEq

structure EasyEdaLayer where
  id : ℤ
  name : String
  color : String := ""

structure EasyEdaTrack where
  layer : ℤ
  net : String
  x1 : ℚ
  y1 : ℚ
  x2 : ℚ
  y2 : ℚ
  width : ℚ := 1 / 5
  deriving DecidableEq

structure EasyEdaVia where
  x : ℚ
  y : ℚ
  outer_diameter : ℚ := 4 / 5
  inner_diameter : ℚ := 2 / 5
  deriving DecidableEq

structure EasyEdaFootprint where
  ref : String
  package : String
  x : ℚ := 0
  y : ℚ := 0
  rotation : ℚ := 0

structure EasyEdaProSchematic where
  format_version : String := ""
  components : List EasyEdaComponent := []
  nets : List EasyEdaNet := []
  degradation : List EasyEdaDegradationRecord := []

structure EasyEdaProPcb where
  format_version : String := ""
  layers : List EasyEdaLayer := []
  footprints : List EasyEdaFootprint := []
  tracks : List EasyEdaTrack := []
  vias : List EasyEdaVia := []
  degradation : List EasyEdaDegradationRecord := []

structure EasyEdaProProject where
  project_name : String := ""
  format_version : String := ""
  source_provenance : String := ""
  schematic : EasyEdaProSchematic := {}
  pcb : EasyEdaProPcb := {}
  degradation : List EasyEdaDegradationRecord := []

def take200 (s : String) : String := String.ofList (s.toList.take 200)

def schKnown : List String := ["HEADER", "CANVAS", "COMPONENT", "NET", "WIRE", "LABEL"]

def pcbKnown : List String := ["HEADER", "LAYER", "FOOTPRINT", "TRACK", "VIA", "DIMENSION_LINE", "CANVAS"]

/-- `value in known_types`; values that cannot be hashed raise. -/
def isKnown (known_types : List String) : PyValue → Option Bool
  | .str s => some (known_types.contains s)
  | .list _ | .dict _ | .set _ => none
  | _ => some false

/-- A line is a record, or a degradation. -/
def parseLine (document : String) (known_types : List String) (i : ℕ) (line : Line) :
    Option (PyValue ⊕ EasyEdaDegradationRecord) :=
  if maxJsonlLineBytes < line.text.utf8ByteSize then
    some (.inr ⟨.str "OVERSIZED_LINE", document, i, "error", take200 line.text⟩)
  else
    match line.value with
    | none => some (.inr ⟨.str "PARSE_ERROR", document, i, "error", take200 line.text⟩)
    | some (.dict items) =>
      let obj := PyValue.dict items
      let record_type := (obj.getItem "type").getD (.str "UNKNOWN")
      (isKnown known_types record_type).map fun known =>
        if known then .inl obj else .inr ⟨record_type, document, i, "info", take200 line.text⟩
    | some _ => some (.inr ⟨.str "NON_OBJECT_LINE", document, i, "error", take200 line.text⟩)

/-- The records and the degradations of a document; nothing when a type cannot be looked up. -/
def parseJsonl (lines : List Line) (document : String) (known_types : List String) :
    Option (List PyValue × List EasyEdaDegradationRecord) :=
  (lines.zipIdx.mapM fun item => parseLine document known_types item.2 item.1).map fun parsed =>
    (parsed.filterMap Sum.getLeft?, parsed.filterMap Sum.getRight?)

/-- `str(rec.get(key, ""))` -/
def textOf (rec : PyValue) (key : String) : String := toText rt ((rec.getItem key).getD (.str ""))

/-- `float(rec.get(key, default))` -/
def floatOf (rec : PyValue) (key : String) (default : ℚ) : Option ℚ :=
  toFloat rt ((rec.getItem key).getD (.float default))

/-- `int(rec.get(key, default))` -/
def intOf (rec : PyValue) (key : String) (default : ℤ) : Option ℤ := toInt rt ((rec.getItem key).getD (.int default))

def componentOf (rec : PyValue) : Option EasyEdaComponent := do
  let x ← floatOf rt rec "x" 0
  let y ← floatOf rt rec "y" 0
  return ⟨textOf rt rec "id", textOf rt rec "ref", textOf rt rec "value", textOf rt rec "package", textOf rt rec "mpn",
    x, y⟩

/-- The pins of a net: the entries that are no dictionaries are left out. -/
def pinsOf (rec : PyValue) : Option (List (String × String)) :=
  (((rec.getItem "pins").getD (.list [])).elements).map fun pins_raw => pins_raw.filterMap fun p =>
    match p with
    | .dict items => some (textOf rt (.dict items) "component", textOf rt (.dict items) "pin")
    | _ => none

def netOf (rec : PyValue) : Option EasyEdaNet := do
  let pins ← pinsOf rt rec
  return ⟨textOf rt rec "id", textOf rt rec "name", pins⟩

def addSchematicRecord (sch : EasyEdaProSchematic) (rec : PyValue) : Option EasyEdaProSchematic :=
  match rec.getItem "type" with
  | some (.str "HEADER") => some { sch with format_version := textOf rt rec "version" }
  | some (.str "COMPONENT") => (componentOf rt rec).map fun c => { sch with components := sch.components ++ [c] }
  | some (.str "NET") => (netOf rt rec).map fun n => { sch with nets := sch.nets ++ [n] }
  | _ => some sch

/-- The schematic of a document; nothing when a record raises. -/
def extractSchematic (lines : List Line) (document : String) : Option EasyEdaProSchematic := do
  let (records, degradation) ← parseJsonl lines document schKnown
  records.foldlM (addSchematicRecord rt) { degradation := degradation }

def layerOf (rec : PyValue) : Option EasyEdaLayer := do
  let id ← intOf rt rec "id" 0
  return ⟨id, textOf rt rec "name", textOf rt rec "color"⟩

def footprintOf (rec : PyValue) : Option EasyEdaFootprint := do
  let x ← floatOf rt rec "x" 0
  let y ← floatOf rt rec "y" 0
  let rotation ← floatOf rt rec "rotation" 0
  return ⟨textOf rt rec "ref", textOf rt rec "package", x, y, rotation⟩

def trackOf (rec : PyValue) : Option EasyEdaTrack := do
  let layer ← intOf rt rec "layer" 1
  let x1 ← floatOf rt rec "x1" 0
  let y1 ← floatOf rt rec "y1" 0
  let x2 ← floatOf rt rec "x2" 0
  let y2 ← floatOf rt rec "y2" 0
  let width ← floatOf rt rec "width" (1 / 5)
  return ⟨layer, textOf rt rec "net", x1, y1, x2, y2, width⟩

def viaOf (rec : PyValue) : Option EasyEdaVia := do
  let x ← floatOf rt rec "x" 0
  let y ← floatOf rt rec "y" 0
  let outer_diameter ← floatOf rt rec "outerDiameter" (4 / 5)
  let inner_diameter ← floatOf rt rec "innerDiameter" (2 / 5)
  return ⟨x, y, outer_diameter, inner_diameter⟩

def addPcbRecord (pcb : EasyEdaProPcb) (rec : PyValue) : Option EasyEdaProPcb :=
  match rec.getItem "type" with
  | some (.str "HEADER") => some { pcb with format_version := textOf rt rec "version" }
  | some (.str "LAYER") => (layerOf rt rec).map fun l => { pcb with layers := pcb.layers ++ [l] }
  | some (.str "FOOTPRINT") => (footprintOf rt rec).map fun f => { pcb with footprints := pcb.footprints ++ [f] }
  | some (.str "TRACK") => (trackOf rt rec).map fun t => { pcb with tracks := pcb.tracks ++ [t] }
  | some (.str "VIA") => (viaOf rt rec).map fun v => { pcb with vias := pcb.vias ++ [v] }
  | _ => some pcb

def extractPcb (lines : List Line) (document : String) : Option EasyEdaProPcb := do
  let (records, degradation) ← parseJsonl lines document pcbKnown
  records.foldlM (addPcbRecord rt) { degradation := degradation }

/-- `needle in name.lower()` -/
def nameContains (needle name : String) : Bool :=
  (name.toList.map Char.toLower).tails.any fun rest => needle.toList.isPrefixOf rest

def isJsonl (name : String) : Bool := ".jsonl".toList.isSuffixOf name.toList

def EasyEdaProProject.degrade (project : EasyEdaProProject) (record_type document severity raw : String) :
    EasyEdaProProject :=
  { project with degradation := project.degradation ++ [⟨.str record_type, document, 0, severity, raw⟩] }

def loadProjectMetadata (members : List Member) (project : EasyEdaProProject) : EasyEdaProProject :=
  match members.find? fun m => m.name = "project.json" with
  | none => project.degrade "MISSING_PROJECT_JSON" "" "error" "project.json not found in ZIP"
  | some m =>
    match m.lines.head?.bind Line.value with
    | none => project.degrade "PARSE_ERROR" "project.json" "error" "project.json could not be decoded"
    | some info =>
      let version := toText rt ((info.getItem "formatVersion").getD ((info.getItem "version").getD (.str "")))
      let project := { project with
        project_name := textOf rt info "name"
        format_version := version
        source_provenance := textOf rt info "sourceProvenance" }
      if version ≠ "" ∧ ¬ "2.".toList.isPrefixOf version.toList then
        project.degrade "UNSUPPORTED_VERSION" "project.json" "info" s!"version={version}"
      else project

/-- The document of the schematic: one that is named so, or else one that is not the board. -/
def schematicDocument (members : List Member) : Option Member :=
  match members.find? fun m => nameContains "schematic" m.name && isJsonl m.name with
  | some m => some m
  | none => members.find? fun m => isJsonl m.name && !nameContains "pcb" m.name

def loadSchematicDocument (members : List Member) (project : EasyEdaProProject) : EasyEdaProProject :=
  match schematicDocument members with
  | none => project
  | some m =>
    match extractSchematic rt m.lines m.name with
    | some sch => { project with schematic := sch }
    | none => project.degrade "SCHEMATIC_READ_ERROR" m.name "error" ""

def loadPcbDocument (members : List Member) (project : EasyEdaProProject) : EasyEdaProProject :=
  match members.find? fun m => nameContains "pcb" m.name && isJsonl m.name with
  | none => project
  | some m =>
    match extractPcb rt m.lines m.name with
    | some pcb => { project with pcb := pcb }
    | none => project.degrade "PCB_READ_ERROR" m.name "error" ""

/-- A name that stays below the place of extraction. -/
def isSafePath (arcname : String) : Bool :=
  arcname.toList.head? ≠ some '/' && (arcname.toList.splitOn '/').all (· ≠ ['.', '.'])

/-- The project of an archive; nothing when the archive is too large, or a name is unsafe. -/
def readEasyedaProZip (members : List Member) : Option EasyEdaProProject :=
  if maxUncompressedBytes < (members.map Member.size).sum then none
  else if members.all fun m => isSafePath m.name then
    some (loadPcbDocument rt members (loadSchematicDocument rt members (loadProjectMetadata rt members {})))
  else none

end ZapTrace.EasyEdaPro
