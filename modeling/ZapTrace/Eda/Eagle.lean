import Mathlib.Data.Int.Notation
import Mathlib.Data.Rat.Init
import ZapTrace.Library.Dict
import ZapTrace.Library.Xml

/-!
# The Eagle board adapter

`eda/eagle.py`: the import of an Eagle document into components, nets and geometry, and the export of such
a result as an Eagle document. The steps of both are kept apart as in the source: each step of the import
searches the whole document for one tag, and each step of the export adds one part of the document.

A document is an element tree; how it is written as text and read back is left out. The conversions of
Python between text and numbers are a parameter.
-/

namespace ZapTrace.Eagle

/-- The conversions of Python between text and numbers, with floats of the type `F`. -/
structure Numbers (F : Type) where
  /-- `float(val)`, where the text is that of a number. -/
  toFloat : String → Option F
  /-- `str(x)` of a float -/
  str : F → String
  /-- `x + y` -/
  add : F → F → F
  /-- The float of a literal of the source. -/
  literal : ℚ → F
  /-- `int(val)`, where the text is that of an integer. -/
  toInt : String → Option ℤ
  /-- The text of a float is read as this float. -/
  toFloat_str : ∀ x, toFloat (str x) = some x
  str_ne_empty : ∀ x, str x ≠ ""
  /-- An integer that was read can be written and read again. -/
  toInt_toString : ∀ {val n}, toInt val = some n → toInt (toString n) = some n
  /-- Up to 640 digits, integers are read whatever the limit of the interpreter. -/
  toInt_digits : ∀ n : ℕ, (toString n).length ≤ 640 → toInt (toString n) = some (n : ℤ)

variable {F : Type} (nums : Numbers F)

def Numbers.float (val : Option String) (default : F) : F :=
  match val with
  | none => default
  | some val => if val = "" then default else (nums.toFloat val).getD default

def Numbers.int (val : Option String) (default : ℤ) : ℤ :=
  match val with
  | none => default
  | some val => if val = "" then default else (nums.toInt val).getD default

/-! ## What an import collects -/

/-- An Eagle construct that could not be fully imported. -/
structure EagleUnsupportedRecord where
  kind : String
  message : String
  severity : String := "warning"
  xpath : String := ""
deriving DecidableEq

/-- One pad from a placed element's package geometry. -/
structure EaglePad (F : Type) where
  name : String
  x_mm : F
  y_mm : F
  dx_mm : F
  dy_mm : F
  layer : ℤ
  kind : String
  drill_mm : F

/-- One routed wire segment. -/
structure EagleTrack (F : Type) where
  x1 : F
  y1 : F
  x2 : F
  y2 : F
  width : F
  layer : ℤ
  net_name : String := ""
deriving DecidableEq

structure EagleVia (F : Type) where
  x : F
  y : F
  drill : F
  extent : String
deriving DecidableEq

structure EagleLayer where
  number : ℤ
  name : String
  color : ℤ
  visible : Bool
deriving DecidableEq

structure EagleImportResult (F : Type) where
  schema_version : String := ""
  nets : Dict String (List String) := .empty
  components : Dict String (Dict String String) := .empty
  unsupported : List EagleUnsupportedRecord := []
  pads : Dict String (List (EaglePad F)) := .empty
  tracks : List (EagleTrack F) := []
  vias : List (EagleVia F) := []
  layers : List EagleLayer := []
  board_outline : List (EagleTrack F) := []
  packages : Dict String (List (EaglePad F)) := .empty

/-! ## The import -/

def layerOf (layer_el : Element) : EagleLayer where
  number := nums.int (layer_el.get? "number") 0
  name := layer_el.get "name" ""
  color := nums.int (layer_el.get? "color") 4
  visible := layer_el.get "visible" "yes" != "no"

def parseEagleLayers (root : Element) (result : EagleImportResult F) : EagleImportResult F :=
  { result with layers := result.layers ++ (root.iter "layer").map (layerOf nums) }

def smdPad (smd : Element) : EaglePad F where
  name := smd.get "name" ""
  x_mm := nums.float (smd.get? "x") (nums.literal 0)
  y_mm := nums.float (smd.get? "y") (nums.literal 0)
  dx_mm := nums.float (smd.get? "dx") (nums.literal 0.5)
  dy_mm := nums.float (smd.get? "dy") (nums.literal 0.5)
  layer := nums.int (smd.get? "layer") 1
  kind := "smd"
  drill_mm := nums.literal 0

def throughPad (pad : Element) : EaglePad F where
  name := pad.get "name" ""
  x_mm := nums.float (pad.get? "x") (nums.literal 0)
  y_mm := nums.float (pad.get? "y") (nums.literal 0)
  dx_mm := nums.float (pad.get? "diameter") (nums.literal 1.8)
  dy_mm := nums.float (pad.get? "diameter") (nums.literal 1.8)
  layer := 17
  kind := "thru-hole"
  drill_mm := nums.float (pad.get? "drill") (nums.literal 0.9)

/-- One round of the loop over the packages of a library. -/
def parsePackage (packages : Dict String (List (EaglePad F))) (pkg_el : Element) : Dict String (List (EaglePad F)) :=
  if pkg_el.get "name" "" = "" then packages
  else packages.set (pkg_el.get "name" "")
    ((pkg_el.findall "smd").map (smdPad nums) ++ (pkg_el.findall "pad").map (throughPad nums))

/-- `_parse_eagle_packages`: only the first library is read. -/
def parseEaglePackages (root : Element) (result : EagleImportResult F) : EagleImportResult F :=
  match root.iter "library" with
  | [] => result
  | lib_el :: _ => { result with
      packages := (lib_el.findallBelow "package").foldl (parsePackage nums) result.packages
      unsupported := result.unsupported ++
        [{ kind := "library"
           message := "Embedded library definitions partially imported (packages only)"
           severity := "info"
           xpath := "/eagle/drawing/board/libraries/library" }] }

/-- One round of the loop over the components of a document. -/
def parseComponent (components : Dict String (Dict String String)) (comp : Element) :
    Dict String (Dict String String) :=
  if comp.get "name" "" = "" then components
  else components.set (comp.get "name" "")
    ((Dict.empty.set "type" (comp.get "deviceset" "")).set "value" (comp.get "value" ""))

def parseEagleComponents (root : Element) (result : EagleImportResult F) : EagleImportResult F :=
  { result with components := (root.iter "component").foldl parseComponent result.components }

def absolutePackagePads (elem : Element) (package_pads : List (EaglePad F)) : List (EaglePad F) :=
  let ex := nums.float (elem.get? "x") (nums.literal 0)
  let ey := nums.float (elem.get? "y") (nums.literal 0)
  package_pads.map fun pad => { pad with x_mm := nums.add ex pad.x_mm, y_mm := nums.add ey pad.y_mm }

/-- An attribute that is missing or empty gets a value. -/
def fillIn (existing : Dict String String) (name value : String) : Dict String String :=
  if (existing.get? name).getD "" = "" then existing.set name value else existing

/-- The attributes of a component after its placed element is read. -/
def placeElement (existing : Dict String String) (elem : Element) : Dict String String :=
  let updated := (((existing.set "x_mm" (elem.get "x" "0")).set "y_mm" (elem.get "y" "0")).set "layer"
    (elem.get "layer" "")).set "package" (elem.get "package" "")
  fillIn (fillIn updated "type" (elem.get "package" "")) "value" (elem.get "value" "")

/-- One round of the loop over the placed elements of a document. -/
def parseElement (result : EagleImportResult F) (elem : Element) : EagleImportResult F :=
  let ref := elem.get "name" ""
  if ref = "" then result
  else
    let existing := placeElement ((result.components.get? ref).getD .empty) elem
    let package := (existing.get? "package").getD ""
    { result with
      components := result.components.set ref existing
      pads :=
        match result.packages.get? package with
        | some package_pads =>
          if package = "" then result.pads else result.pads.set ref (absolutePackagePads nums elem package_pads)
        | none => result.pads }

def parseEagleElements (root : Element) (result : EagleImportResult F) : EagleImportResult F :=
  (root.iter "element").foldl (parseElement nums) result

def trackOf (net_name : String) (wire : Element) : EagleTrack F where
  x1 := nums.float (wire.get? "x1") (nums.literal 0)
  y1 := nums.float (wire.get? "y1") (nums.literal 0)
  x2 := nums.float (wire.get? "x2") (nums.literal 0)
  y2 := nums.float (wire.get? "y2") (nums.literal 0)
  width := nums.float (wire.get? "width") (nums.literal 0.2032)
  layer := nums.int (wire.get? "layer") 1
  net_name := net_name

/-- The components on a net: the attribute of each child of one tag that has it. -/
def refsOf (tag name : String) (net : Element) : List String :=
  ((net.findall tag).map fun child => child.get name "").filter fun ref => ref ≠ ""

/-- One round of the loop over the signals of a document. -/
def parseSignal (result : EagleImportResult F) (signal : Element) : EagleImportResult F :=
  let net_name := signal.get "name" ""
  if net_name = "" then result
  else { result with
    nets := result.nets.set net_name (refsOf "contactref" "element" signal)
    tracks := result.tracks ++ (signal.findall "wire").map (trackOf nums net_name) }

def parseEagleSignals (root : Element) (result : EagleImportResult F) : EagleImportResult F :=
  (root.iter "signal").foldl (parseSignal nums) result

def parseSchematicNet (nets : Dict String (List String)) (net : Element) : Dict String (List String) :=
  let net_name := net.get "name" ""
  if net_name ≠ "" ∧ net_name ∉ nets.keys then nets.set net_name (refsOf "pinref" "part" net) else nets

def parseEagleSchematicNets (root : Element) (result : EagleImportResult F) : EagleImportResult F :=
  { result with nets := (root.iter "net").foldl parseSchematicNet result.nets }

def viaOf (via : Element) : EagleVia F where
  x := nums.float (via.get? "x") (nums.literal 0)
  y := nums.float (via.get? "y") (nums.literal 0)
  drill := nums.float (via.get? "drill") (nums.literal 0.4)
  extent := via.get "extent" "1-16"

def parseEagleVias (root : Element) (result : EagleImportResult F) : EagleImportResult F :=
  { result with vias := result.vias ++ (root.iter "via").map (viaOf nums) }

def outlineWire (wire : Element) : EagleTrack F where
  x1 := nums.float (wire.get? "x1") (nums.literal 0)
  y1 := nums.float (wire.get? "y1") (nums.literal 0)
  x2 := nums.float (wire.get? "x2") (nums.literal 0)
  y2 := nums.float (wire.get? "y2") (nums.literal 0)
  width := nums.float (wire.get? "width") (nums.literal 0.127)
  layer := 20

/-- `_parse_eagle_outline`: the wires of layer 20, wherever they are. -/
def parseEagleOutline (root : Element) (result : EagleImportResult F) : EagleImportResult F :=
  { result with board_outline := result.board_outline ++
      ((root.iter "wire").filter fun wire => wire.get? "layer" = some "20").map (outlineWire nums) }

def unsupportedSpecs : List EagleUnsupportedRecord :=
  [{ kind := "polygon", message := "Polygon fill not imported", severity := "info"
     xpath := "/eagle/drawing/board//polygon" },
   { kind := "designrules", message := "Eagle design rules not imported", severity := "info"
     xpath := "/eagle/drawing/board/designrules" },
   { kind := "attribute", message := "Component-level attributes not imported", severity := "info"
     xpath := "/eagle/drawing/board/elements/element/attribute" }]

def recordEagleUnsupported (root : Element) (result : EagleImportResult F) : EagleImportResult F :=
  { result with unsupported := result.unsupported ++
      unsupportedSpecs.filter fun spec => !(root.iter spec.kind).isEmpty }

def parseRoot (root : Element) : Except String (EagleImportResult F) :=
  if root.tag? = some "eagle" then
    let result : EagleImportResult F := { schema_version := root.get "version" "" }
    let result := parseEagleLayers nums root result
    let result := parseEaglePackages nums root result
    let result := parseEagleComponents root result
    let result := parseEagleElements nums root result
    let result := parseEagleSignals nums root result
    let result := parseEagleSchematicNets root result
    let result := parseEagleVias nums root result
    let result := parseEagleOutline nums root result
    .ok (recordEagleUnsupported root result)
  else
    let tag := root.tag?.getD ""
    .error s!"Not an Eagle file: root tag is '{tag}', expected 'eagle'"

/-! ## The export -/

/-- `sorted(texts)` -/
def sortedTexts (texts : List String) : List String := texts.mergeSort fun a b => a ≤ b

/-- `_append_eagle_layers` -/
def eagleLayers (result : EagleImportResult F) : Element :=
  .element "layers" [] ((result.layers.mergeSort fun a b => a.number ≤ b.number).map fun layer =>
    .leaf "layer"
      [("number", toString layer.number), ("name", layer.name), ("color", toString layer.color), ("fill", "1"),
        ("visible", if layer.visible then "yes" else "no"), ("active", "yes")])

def wireElement (wire : EagleTrack F) (layer : String) : Element :=
  .leaf "wire"
    [("x1", nums.str wire.x1), ("y1", nums.str wire.y1), ("x2", nums.str wire.x2), ("y2", nums.str wire.y2),
      ("width", nums.str wire.width), ("layer", layer)]

/-- `_append_eagle_outline` -/
def eagleOutline (result : EagleImportResult F) : Element :=
  .element "plain" [] (result.board_outline.map fun wire => wireElement nums wire "20")

def componentElement (ref : String) (attrs : Dict String String) : Element :=
  .leaf "component"
    [("name", ref), ("library", "zaptrace-export"), ("deviceset", (attrs.get? "type").getD ""),
      ("value", (attrs.get? "value").getD "")]

def placedElement (ref : String) (attrs : Dict String String) : Element :=
  .leaf "element"
    [("name", ref), ("library", "zaptrace-export"),
      ("package", (attrs.get? "package").getD ((attrs.get? "type").getD "")),
      ("value", (attrs.get? "value").getD ""), ("x", (attrs.get? "x_mm").getD "0"),
      ("y", (attrs.get? "y_mm").getD "0")]

/-- The attributes of each component in the order of the references. -/
def sortedComponents (result : EagleImportResult F) : List (String × Dict String String) :=
  (sortedTexts result.components.keys).map fun ref => (ref, (result.components.get? ref).getD .empty)

/-- `_append_eagle_components`: the components and the placed elements. -/
def eagleComponents (result : EagleImportResult F) : List Element :=
  [.element "components" [] ((sortedComponents result).map fun item => componentElement item.1 item.2),
    .element "elements" [] ((sortedComponents result).map fun item => placedElement item.1 item.2)]

def tracksByNet (result : EagleImportResult F) : Dict String (List (EagleTrack F)) :=
  Dict.groupBy EagleTrack.net_name id result.tracks

def signalElement (result : EagleImportResult F) (net_name : String) : Element :=
  .element "signal" [("name", net_name)]
    ((sortedTexts ((result.nets.get? net_name).getD [])).map (fun ref =>
        .leaf "contactref" [("element", ref), ("pad", "?")]) ++
      (((tracksByNet result).get? net_name).getD []).map fun track =>
        wireElement nums track (toString track.layer))

/-- `_append_eagle_signals` -/
def eagleSignals (result : EagleImportResult F) : Element :=
  .element "signals" [] ((sortedTexts result.nets.keys).map (signalElement nums result))

/-- `_append_eagle_vias` -/
def eagleVias (result : EagleImportResult F) : List Element :=
  result.vias.map fun via =>
    .leaf "via" [("x", nums.str via.x), ("y", nums.str via.y), ("extent", via.extent), ("drill", nums.str via.drill)]

/-- `_append_eagle_unsupported_notes` -/
def eagleUnsupportedNotes (result : EagleImportResult F) : List Element :=
  if result.unsupported.isEmpty then []
  else
    let comments := "; ".intercalate (result.unsupported.map fun record => s!"{record.kind}: {record.message}")
    [.comment s!" ZapTrace export notes: {comments} "]

/-- `export_eagle_xml`: the document that is written. -/
def exportEagleXml (result : EagleImportResult F) : Element :=
  .element "eagle" [("version", if result.schema_version = "" then "7.7.0" else result.schema_version)]
    [.element "drawing" []
      [eagleLayers result,
        .element "board" []
          ([eagleOutline nums result] ++ eagleComponents result ++ [eagleSignals nums result] ++
            eagleVias nums result ++ eagleUnsupportedNotes result)]]

end ZapTrace.Eagle
