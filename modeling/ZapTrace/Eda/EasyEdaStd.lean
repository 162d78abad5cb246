import Mathlib.Data.List.Sort
import Mathlib.Data.String.Basic
import ZapTrace.Core.Schema
import ZapTrace.Library.Account

/-!
# EasyEDA Standard documents

A document is one JSON value with a section of components and nets. The reader takes the first section under four
names; it makes a component or a net of each entry that it can read, and a degradation record of each other entry,
wire and shape. A project is converted to a design of components and nets. The writer makes a section of a design, and
counts routing, copper pours and the result of the design rules as unsupported.

A JSON text is a text with the value that it stands for, if there is one. How values are written, and how texts are
read as numbers, are parameters; numbers are rational.
-/

namespace ZapTrace.EasyEdaStd

open Schema (Design)
open PyValue (str getItem)

/-- What the module uses of the runtime. -/
structure Runtime where
  /-- `str(value)` of a value that is no text. -/
  str : PyValue → String
  /-- `float(text)` -/
  parseFloat : String → Option ℚ
  /-- What `float(value)` says of a value that is no number. -/
  floatMessage : PyValue → String
  /-- `json.dumps(doc, ensure_ascii=False, indent=2)` -/
  dumps : PyValue → String

variable (rt : Runtime)

/-- `str(value)` -/
def Runtime.text : PyValue → String
  | .str s => s
  | v => rt.str v

inductive ReadError
  | typeError
  | valueError
  | overflowError
  deriving DecidableEq

def maxJsonBytes : ℕ := 10 * 1024 * 1024

/-! ## Projects -/

structure EasyEdaStdComponent where
  id : String
  ref : String
  value : String := ""
  package : String := ""
  x : ℚ := 0
  y : ℚ := 0

structure EasyEdaStdPin where
  componentId : String
  pinNumber : String

structure EasyEdaStdNet where
  id : String
  name : String
  pins : List EasyEdaStdPin := []

structure EasyEdaStdDegradationRecord where
  record_type : String
  document : String
  severity : String := "info"
  raw : String := ""

structure EasyEdaStdProject where
  components : List EasyEdaStdComponent := []
  nets : List EasyEdaStdNet := []
  format_version : String := ""
  degradation : List EasyEdaStdDegradationRecord := []

/-! ## The reader -/

def take200 (s : String) : String := .ofList (s.toList.take 200)

/-- `value.get(key, default)` -/
def get (value : PyValue) (key : String) (default : PyValue) : PyValue := (value.getItem key).getD default

inductive FloatError
  | invalid
  | overflow

/-- `float(value)`. A whole number past the range of floats is refused. -/
def pyFloat : PyValue → Except FloatError ℚ
  | .float q => .ok q
  | .int i => if i.natAbs < 2 ^ 1024 - 2 ^ 970 then .ok i else .error .overflow
  | .bool b => .ok (if b then 1 else 0)
  | .str s =>
    match rt.parseFloat s with
    | some q => .ok q
    | none => .error .invalid
  | _ => .error .invalid

/-- A component, or a record of the entry. A number past the range of floats is raised. -/
def parseComponent (document : String) (raw : PyValue) :
    Except ReadError (EasyEdaStdComponent ⊕ EasyEdaStdDegradationRecord) :=
  match raw with
  | .dict _ =>
    let cid := rt.text (get raw "id" (str ""))
    if cid = "" then .ok (.inr ⟨"COMPONENT_MISSING_ID", document, "error", take200 (rt.text raw)⟩)
    else
      let parse_error (value : PyValue) : EasyEdaStdDegradationRecord :=
        ⟨"COMPONENT_PARSE_ERROR", document, "error", rt.floatMessage value ++ ": " ++ take200 (rt.text raw)⟩
      match pyFloat rt (get raw "x" (.float 0)) with
      | .error .overflow => .error .overflowError
      | .error .invalid => .ok (.inr (parse_error (get raw "x" (.float 0))))
      | .ok x =>
        match pyFloat rt (get raw "y" (.float 0)) with
        | .error .overflow => .error .overflowError
        | .error .invalid => .ok (.inr (parse_error (get raw "y" (.float 0))))
        | .ok y =>
          .ok (.inl
            { id := cid
              ref := rt.text (get raw "ref" (str ""))
              value := rt.text (get raw "value" (str ""))
              package := rt.text (get raw "packageName" (get raw "package" (str "")))
              x := x
              y := y })
  | _ => .ok (.inr ⟨"NON_OBJECT_COMPONENT", document, "error", take200 (rt.text raw)⟩)

/-- A pin of a net. An entry that is no object is passed over. -/
def parsePin : PyValue → Option EasyEdaStdPin
  | .dict items =>
    some ⟨rt.text (get (.dict items) "componentId" (str "")), rt.text (get (.dict items) "pinNumber" (str ""))⟩
  | _ => none

def parsePins : PyValue → List EasyEdaStdPin
  | .list xs => xs.filterMap (parsePin rt)
  | _ => []

/-- A net, or a record of the entry. -/
def parseNet (document : String) (raw : PyValue) : EasyEdaStdNet ⊕ EasyEdaStdDegradationRecord :=
  match raw with
  | .dict _ =>
    let nid := rt.text (get raw "id" (str ""))
    let name := rt.text (get raw "name" (str ""))
    if nid = "" ∨ name = "" then .inr ⟨"NET_MISSING_FIELD", document, "error", take200 (rt.text raw)⟩
    else .inl { id := nid, name := name, pins := parsePins rt (get raw "pins" (.list [])) }
  | _ => .inr ⟨"NON_OBJECT_NET", document, "error", take200 (rt.text raw)⟩

def sectionKeys : List String := ["schematic", "PCB", "pcb", "Schematic"]

/-- The sections of a document, in the order in which they are looked for. -/
def sections (data : PyValue) : List PyValue :=
  sectionKeys.filterMap fun key =>
    match data.getItem key with
    | some (.dict items) => some (.dict items)
    | _ => none

/-- `_extract_section`: the first section -/
def extractSection (data : PyValue) : PyValue := (sections data).head?.getD (.dict [])

def nonObjectRootProject (raw : PyValue) : EasyEdaStdProject where
  degradation := [⟨"NON_OBJECT_ROOT", "root", "error", take200 (rt.text raw)⟩]

def supportedEditorPrefixes : List String := ["6.", "5.", "2."]

/-- The version, and the records of the head. -/
def populateProjectHead (data : PyValue) : String × List EasyEdaStdDegradationRecord :=
  match get data "head" (.dict []) with
  | .dict items =>
    let format_version := rt.text (get (.dict items) "editorVersion" (str ""))
    if format_version ≠ "" ∧ ∀ supported ∈ supportedEditorPrefixes, ¬ supported.toList <+: format_version.toList then
      (format_version, [⟨"UNSUPPORTED_VERSION", "head", "info", s!"editorVersion={format_version}"⟩])
    else (format_version, [])
  | head => ("", [⟨"MALFORMED_HEAD", "head", "info", take200 (rt.text head)⟩])

def shapeRecordType : PyValue → String
  | .dict items => rt.text (get (.dict items) "type" (str "UNKNOWN_SHAPE"))
  | .str s => if s.toList.head? = some '~' then "TILDE_SHAPE" else "UNKNOWN_SHAPE"
  | _ => "UNKNOWN_SHAPE"

def wireRecord (wire : PyValue) : EasyEdaStdDegradationRecord :=
  ⟨"WIRE", "schematic.wires", "info", take200 (rt.text wire)⟩

def shapeRecord (shape : PyValue) : EasyEdaStdDegradationRecord :=
  ⟨shapeRecordType rt shape, "schematic.shapes", "info", take200 (rt.text shape)⟩

def entries (part : PyValue) (key : String) : Except ReadError (List PyValue) :=
  match (get part key (.list [])).elements with
  | some xs => .ok xs
  | none => .error .typeError

open Account (lefts rights)

def populateProjectSection (part : PyValue) (format_version : String) (head : List EasyEdaStdDegradationRecord) :
    Except ReadError EasyEdaStdProject := do
  let components ← (← entries part "components").mapM (parseComponent rt "schematic.components")
  let nets := (← entries part "nets").map (parseNet rt "schematic.nets")
  let wires ← entries part "wires"
  let shapes ← entries part "shapes"
  return {
    components := lefts components
    nets := lefts nets
    format_version := format_version
    degradation := head ++ rights components ++ rights nets ++ wires.map (wireRecord rt) ++
      shapes.map (shapeRecord rt) }

/-- The reader on an object. -/
def readData (data : PyValue) : Except ReadError EasyEdaStdProject :=
  let (format_version, head) := populateProjectHead rt data
  match extractSection data with
  | .dict [] =>
    .ok
      { format_version := format_version
        degradation := head ++ [⟨"MISSING_SECTION", "root", "error", "No 'schematic' or 'PCB' key found"⟩] }
  | part => populateProjectSection rt part format_version head

/-- A text with the value that it stands for, or a value. -/
inductive Source
  | text (text : String) (value : Option PyValue)
  | value (value : PyValue)

def readEasyedaStdJson : Source → Except ReadError EasyEdaStdProject
  | .value (.list xs) => .ok (nonObjectRootProject rt (.list xs))
  | .value (.dict items) => readData rt (.dict items)
  | .value _ => .error .typeError
  | .text text value =>
    if maxJsonBytes < text.utf8ByteSize then .error .valueError
    else
      match value with
      | none => .error .valueError
      | some (.dict items) => readData rt (.dict items)
      | some value => .ok (nonObjectRootProject rt value)

/-! ## The conversion -/

def canonicalComponent (c : EasyEdaStdComponent) : Schema.Component where
  id := c.id
  ref := c.ref
  type := "component"
  value := some c.value
  footprint := c.package
  position := some (c.x, c.y)

def netNodes (n : EasyEdaStdNet) : List Schema.NetNode :=
  (n.pins.filter fun p => p.componentId ≠ "" ∧ p.pinNumber ≠ "").map fun p => ⟨p.componentId, p.pinNumber⟩

/-- The net of a design. A blank name is refused. -/
def canonicalNet (n : EasyEdaStdNet) : Option Schema.Net :=
  if h : pyStrip n.name ≠ "" then some { id := n.id, name := ⟨n.name, h⟩, nodes := netNodes n } else none

/-- `easyeda_std_project_to_design`, if no net is refused -/
def easyedaStdProjectToDesign (project : EasyEdaStdProject) (name : String) : Option Design :=
  (project.nets.mapM canonicalNet).map fun nets =>
    { «meta» := { name := name }
      components := Dict.indexBy Schema.Component.id (project.components.map canonicalComponent)
      nets := Dict.indexBy Schema.Net.id nets }

/-! ## The writer -/

structure EasyEdaStdWriteReport where
  unsupported_count : ℕ := 0

/-- No design elements were lost during write. -/
def EasyEdaStdWriteReport.accepted (report : EasyEdaStdWriteReport) : Prop := report.unsupported_count = 0

/-- The values of a dictionary in the order of their keys. -/
def sortedValues {α : Type} (d : Dict String α) : List α :=
  (d.items.insertionSort fun item item' => item.1 ≤ item'.1).map Prod.snd

def componentRecord (c : Schema.Component) : PyValue :=
  .dict [(str "id", str c.id), (str "ref", str c.ref), (str "value", str (c.value.getD "")),
    (str "packageName", str c.footprint), (str "x", .float (c.position.getD (0, 0)).1),
    (str "y", .float (c.position.getD (0, 0)).2)]

def pinRecord (node : Schema.NetNode) : PyValue :=
  .dict [(str "componentId", str node.component_ref), (str "pinNumber", str node.pin_name)]

def netRecord (n : Schema.Net) : PyValue :=
  .dict [(str "id", str n.id), (str "name", str n.name.val), (str "pins", .list (n.nodes.map pinRecord))]

def document (design : Design) (project_name source_provenance : String) : PyValue :=
  .dict [(str "head", .dict [(str "docType", str "1"), (str "editorVersion", str "6.5.40"),
      (str "c_para", .dict [(str "name", str project_name), (str "sourceProvenance", str source_provenance)])]),
    (str "schematic", .dict [(str "components", .list ((sortedValues design.components).map componentRecord)),
      (str "nets", .list ((sortedValues design.nets).map netRecord)), (str "wires", .list []),
      (str "shapes", .list [])])]

def writeReport (design : Design) : EasyEdaStdWriteReport where
  unsupported_count := (if design.routing.isSome then 1 else 0) + design.copper_pours.items.length +
    (if design.drc_result.isSome then 1 else 0)

def writeEasyedaStdJson (design : Design) (project_name source_provenance : String) : Source × EasyEdaStdWriteReport :=
  (.text (rt.dumps (document design project_name source_provenance))
      (some (document design project_name source_provenance)),
    writeReport design)

end ZapTrace.EasyEdaStd
