import Mathlib.Data.List.DropRight
import ZapTrace.Core.Schema
import ZapTrace.Io.Sexp
import ZapTrace.Library.Json
import ZapTrace.Library.Lists

/-!
# Vendor footprints on a board

A component with a pinned footprint asset has the expressions of the vendor on the board. Its reference, its value
and the nets of its pads are filled in, the points of a rule area are moved to the board, and each identity in the
file of the vendor is replaced by one of the instance. The seed of such an identity has the path to it in the file.

The pinned file is a parameter, and so are the conversions between numbers and texts.
-/

namespace ZapTrace.VerifiedFootprint

open SexpNode (atom list)

local instance instLawfulBEqText : LawfulBEq Text := inferInstance

/-- What the export takes from the files of vendors, and how it converts numbers and texts. -/
structure Vendor where
  /-- The name of the file of an asset, and what is parsed from it. -/
  verifiedFootprint : String → Except String (String × SexpNode)
  /-- What is wrong with the footprint of a component, when it is not that of its asset. -/
  assetError : Schema.Component → Option String
  /-- `float(text)`, when it is finite. -/
  parseFloat : Text → Except String ℚ
  /-- `f"{value:.5f}"` -/
  fixed5 : ℚ → Text
  /-- `str` of a list. -/
  listText : List SexpNode → Text
  /-- `repr` of a text. -/
  repr : String → String

/-! ## Writing -/

/-- The positions in a form that are always in quotes. -/
def quoteAtomPositions : List (Text × List ℕ) :=
  [("footprint".toList, [1]), ("property".toList, [1, 2]), ("pad".toList, [1]), ("fp_text".toList, [2]),
    ("layer".toList, [1]), ("layers".toList, [1, 2, 3, 4, 5]), ("net".toList, [2]), ("model".toList, [1]),
    ("uuid".toList, [1]), ("descr".toList, [1]), ("tags".toList, [1])]

/-- An atom of a form with `size` items. The one property of a pad with two items is a bare word. -/
def formatAtom (kind : Text) (size pos : ℕ) (value : Text) : Text :=
  let padEnum := kind = "property".toList ∧ size = 2 ∧ pos = 1
  if pos ∈ (quoteAtomPositions.lookup kind).getD [] ∧ ¬ padEnum then
    (JsonText.quoted (String.ofList value)).toList
  else writeAtom value

mutual

def kicadFormat : SexpNode → ℕ → Except String Text
  | .atom value, _ => .ok (writeAtom value)
  | .list items, indent =>
    match items.head? with
    | some (.atom kind) => do
      let (atoms, parts) ← formatItems kind items.length items 0 false indent
      let out := ['('] ++ [' '].intercalate atoms
      if parts = [] then return out ++ [')']
      return out ++ ['\n'] ++ ['\n'].intercalate parts ++ ['\n'] ++ padding indent ++ [')']
    | _ => .error "Malformed vendor S-expression"

/-- The atoms of a form before its first list, and its lists. -/
def formatItems (kind : Text) (size : ℕ) :
    List SexpNode → ℕ → Bool → ℕ → Except String (List Text × List Text)
  | [], _, _, _ => .ok ([], [])
  | item :: items, pos, nested, indent =>
    match item with
    | .atom value =>
      if nested then .error "Unsupported nested S-expression"
      else do
        let (atoms, parts) ← formatItems kind size items (pos + 1) false indent
        return (formatAtom kind size pos value :: atoms, parts)
    | .list _ => do
      let part ← kicadFormat item (indent + 1)
      let (atoms, parts) ← formatItems kind size items (pos + 1) true indent
      return (atoms, (padding (indent + 1) ++ part) :: parts)

end

/-! ## Rule areas -/

/-- The node is a list with this head. -/
def IsForm (node : SexpNode) (kind : String) : Prop :=
  match node with
  | .list (.atom head :: _) => head = kind.toList
  | _ => False

instance (node : SexpNode) (kind : String) : Decidable (IsForm node kind) := by
  unfold IsForm
  split <;> infer_instance

/-- `str` of a node. -/
def Vendor.text (vendor : Vendor) : SexpNode → Text
  | .atom value => value
  | .list items => vendor.listText items

/-- Zeros at the end are left out, and the point when nothing is behind it. -/
def trimmed (text : Text) : Text :=
  let short := (text.rdropWhile (· = '0')).rdropWhile (· = '.')
  if short = [] ∨ short = ['-', '0'] then ['0'] else short

section

variable (vendor : Vendor)

def boardPoint (origin : ℚ × ℚ) : SexpNode → Except String SexpNode
  | .list [.atom head, first, second] =>
    if head = "xy".toList then do
      let x ← vendor.parseFloat (vendor.text first)
      let y ← vendor.parseFloat (vendor.text second)
      return list [atom head, atom (trimmed (vendor.fixed5 (x + origin.1))),
        atom (trimmed (vendor.fixed5 (y + origin.2)))]
    else .error "Malformed vendor footprint zone coordinate"
  | _ => .error "Malformed vendor footprint zone coordinate"

def boardPoints (origin : ℚ × ℚ) : SexpNode → Except String SexpNode
  | .list (.atom head :: points) =>
    if head = "pts".toList then do return list (atom head :: (← points.mapM (boardPoint vendor origin)))
    else .error "Unsupported footprint zone polygon geometry"
  | _ => .error "Unsupported footprint zone polygon geometry"

def activeLayer (copper_layers : List String) : SexpNode → Option SexpNode
  | .atom layer => if String.ofList layer ∈ copper_layers then some (atom layer) else none
  | .list _ => none

/-- An item of a rule area on the board. Its net is left out. -/
def zoneItem (origin : ℚ × ℚ) (copper_layers : List String) : SexpNode → Except String (Option SexpNode)
  | .list (.atom kind :: items) =>
    if kind ∈ ["net".toList, "net_name".toList, "filled_areas_thickness".toList] then .ok none
    else if kind = "layers".toList then
      let active := items.filterMap (activeLayer copper_layers)
      if active = [] then .error "Vendor keepout applies to no installed copper layer"
      else .ok (some (list (atom "layers".toList :: active)))
    else if kind = "polygon".toList then do
      return some (list (atom kind :: (← items.mapM (boardPoints vendor origin))))
    else .ok (some (list (atom kind :: items)))
  | .list (.list _ :: _) => .error "unhashable type: 'list'"
  | _ => .error "Invalid supplier footprint zone"

def boardZoneCoordinates (origin : ℚ × ℚ) (copper_layers : List String) :
    List SexpNode → Except String (List SexpNode)
  | [] => .ok []
  | head :: items =>
    if copper_layers = [] then .error "No installed copper layers for verified footprint rule area"
    else do
      let updated ← Lists.gather (zoneItem vendor origin copper_layers) items
      if (∃ item ∈ items, IsForm item "polygon") ∧ ∃ item ∈ items, IsForm item "layers" then
        return head :: updated
      else .error "Verified rule-area footprint missing layer/shape"

end

/-! ## Identities -/

def vendorSeed (ref path : String) : String := "vendor-" ++ ref ++ "-" ++ path

/-- The node is an identity of the file of the vendor. -/
def IsIdentity (items : List SexpNode) : Prop :=
  (IsForm (list items) "tstamp" ∨ IsForm (list items) "uuid") ∧ items.length = 2

instance (items : List SexpNode) : Decidable (IsIdentity items) := inferInstanceAs (Decidable (_ ∧ _))

section

variable (uuidFor : String → String) (ref : String)

def identity (seed : String) : SexpNode := list [atom "uuid".toList, atom (uuidFor seed).toList]

mutual

/-- `_instance_identity`: the node with the identities of the instance, and their seeds. -/
def instanceIdentity : SexpNode → String → SexpNode × List String
  | .atom value, _ => (atom value, [])
  | .list items, path =>
    if IsIdentity items then (identity uuidFor (vendorSeed ref path), [vendorSeed ref path])
    else (list (identityItems items path 0).1, (identityItems items path 0).2)

def identityItems : List SexpNode → String → ℕ → List SexpNode × List String
  | [], _, _ => ([], [])
  | child :: children, path, index =>
    let first := instanceIdentity child (path ++ "." ++ toString index)
    let rest := identityItems children path (index + 1)
    (first.1 :: rest.1, first.2 ++ rest.2)

end

end

/-! ## The footprint of a component -/

/-- An expression on the board, with the seeds of its identities, the pad that it maps, and the property that it
is. -/
structure Embedded where
  node : SexpNode
  seeds : List String
  mapped_pads : List String := []
  properties_seen : List Text := []

structure Instance where
  component : Schema.Component
  origin : ℚ × ℚ
  copper_layers : List String
  /-- The path of the symbol in the schematic. -/
  schematic_symbol_path : String
  pin_net_number : String → ℕ
  net_name : ℕ → String

/-- `value or type or ref` -/
def nativeValue (component : Schema.Component) : String :=
  let value := component.value.getD ""
  if value ≠ "" then value else if component.type ≠ "" then component.type else component.ref

def nativeDescription : String := "ZapTrace generated connectivity symbol"

section

variable (vendor : Vendor) (uuidFor : String → String) (inst : Instance)

/-- The text of the third item of a property, which depends on the name of the property. -/
def propertyValue (name : SexpNode) (value : SexpNode) : SexpNode :=
  match name with
  | .atom name =>
    if name = "Reference".toList then atom inst.component.ref.toList
    else if name = "Value".toList then atom (nativeValue inst.component).toList
    else if name = "Description".toList then atom nativeDescription.toList
    else value
  | .list _ => value

def legacyText (head name value : SexpNode) (items : List SexpNode) : List SexpNode × List Text :=
  match name with
  | .atom name =>
    if name = "reference".toList then
      (atom "property".toList :: atom "Reference".toList :: atom inst.component.ref.toList :: items,
        ["Reference".toList])
    else if name = "value".toList then
      (atom "property".toList :: atom "Value".toList :: atom (nativeValue inst.component).toList :: items,
        ["Value".toList])
    else (head :: atom name :: value :: items, [])
  | .list _ => (head :: name :: value :: items, [])

def logicalPin (component : Schema.Component) (pad_id : String) : Option String :=
  if component.package_pin_map.items = [] then some pad_id else component.package_pin_map.get? pad_id

def MapsPad (component : Schema.Component) (pad_id : String) : Prop :=
  ∃ logical_pin, logicalPin component pad_id = some logical_pin ∧
    (pad_id ∈ component.package_pin_map.keys ∨ logical_pin ∈ component.pins.keys)

instance (component : Schema.Component) (pad_id : String) : Decidable (MapsPad component pad_id) :=
  decidable_of_iff ((logicalPin component pad_id).any fun logical_pin =>
    pad_id ∈ component.package_pin_map.keys ∨ logical_pin ∈ component.pins.keys) (by
      rw [Option.any_eq_true]
      simp only [decide_eq_true_eq]
      rfl)

def padNet (pad_id : String) : List SexpNode :=
  let num := inst.pin_net_number pad_id
  if 0 < num then
    [list [atom "net".toList, atom (toString num).toList, atom (inst.net_name num).toList]]
  else []

/-- The items of an expression, before its identities: the pads it maps and the properties it is come with it. -/
def filledIn : List SexpNode → Except String (List SexpNode × List String × List Text)
  | .atom head :: name :: value :: items =>
    if head = "zone".toList then do
      return (← boardZoneCoordinates vendor inst.origin inst.copper_layers (atom head :: name :: value :: items),
        [], [])
    else if head = "property".toList then
      .ok (atom head :: name :: propertyValue inst name value :: items, [], [vendor.text name])
    else if head = "fp_text".toList then
      .ok ((legacyText inst (atom head) name value items).1, [], (legacyText inst (atom head) name value items).2)
    else if head = "pad".toList then
      let pad_id := String.ofList (vendor.text name)
      if MapsPad inst.component pad_id then
        .ok (atom head :: name :: value :: items ++ padNet inst pad_id, [pad_id], [])
      else .ok (atom head :: name :: value :: items, [], [])
    else .ok (atom head :: name :: value :: items, [], [])
  | items =>
    if IsForm (list items) "zone" then do
      return (← boardZoneCoordinates vendor inst.origin inst.copper_layers items, [], [])
    else .ok (items, [], [])

def padIdentity (ref : String) (idx : ℕ) (name : SexpNode) (items : List SexpNode) :
    Except String (List SexpNode × List String) :=
  match (items.drop 3).filter fun field => IsForm field "uuid" with
  | [] =>
    let seed := "vendor-" ++ ref ++ "-" ++ toString idx ++ "-pad"
    .ok (items ++ [identity uuidFor seed], [seed])
  | [field] => .ok (items.take 3 ++ (items.drop 3).filter (fun field => ¬ IsForm field "uuid") ++ [field], [])
  | _ => .error ("Supplier pad has multiple native UUIDs: " ++ ref ++ "." ++ String.ofList (vendor.text name))

/-- An expression of the vendor on the board. Some are left out. -/
def embedChild : SexpNode × ℕ → Except String (Option Embedded)
  | (.atom _, _) | (.list [], _) => .error "Unexpected source footprint expression"
  | (.list (head :: rest), idx) =>
    let ref := inst.component.ref
    let child := list (head :: rest)
    if ["version", "generator", "generator_version", "layer", "embedded_fonts", "uuid", "tstamp", "at"].any
        fun kind => IsForm child kind then .ok none
    else do
      let (items, mapped_pads, properties_seen) ← filledIn vendor inst (head :: rest)
      let (items, seeds) := identityItems uuidFor ref items (toString idx) 0
      if IsForm child "pad" then
        let (items, pad_seeds) ← padIdentity vendor uuidFor ref idx (rest.headD (atom [])) items
        return some { node := list items, seeds := seeds ++ pad_seeds, mapped_pads, properties_seen }
      else return some { node := list items, seeds, mapped_pads, properties_seen }

/-- The pins that have to be mapped. -/
def expectedPads (component : Schema.Component) : List String :=
  if component.package_pin_map.items = [] then component.pins.keys else component.package_pin_map.keys

def footprintHead (float : ℚ → String) (root_name : Text) : List SexpNode :=
  [atom "footprint".toList, atom ("ZapTrace:".toList ++ root_name),
    list [atom "layer".toList, atom "F.Cu".toList],
    identity uuidFor ("footprint-" ++ inst.component.ref),
    list [atom "path".toList, atom inst.schematic_symbol_path.toList],
    list [atom "at".toList, atom (float inst.origin.1).toList, atom (float inst.origin.2).toList,
      atom "0".toList]]

/-- The description of an instance, when the vendor has none. -/
def descriptionNode : SexpNode :=
  list [atom "property".toList, atom "Description".toList, atom nativeDescription.toList,
    list [atom "at".toList, atom "0".toList, atom "0".toList, atom "0".toList],
    list [atom "layer".toList, atom "F.Fab".toList], list [atom "hide".toList, atom "yes".toList]]

/-- `filename.removesuffix(".kicad_mod")` -/
def stem (filename : String) : String :=
  let suffix := ".kicad_mod".toList
  if suffix.isSuffixOf filename.toList then
    .ofList (filename.toList.take (filename.toList.length - suffix.length))
  else filename

/-- The expressions of the vendor below the root of the file, when the root has the name of the file. -/
def sourceChildren (asset filename : String) (root : SexpNode) : Except String (Text × List SexpNode) :=
  match root with
  | .list [_] =>
    if IsForm root "footprint" then .error "list index out of range"
    else .error ("Malformed verified footprint " ++ vendor.repr asset)
  | .list (_ :: .atom root_name :: children) =>
    if IsForm root "footprint" ∧ root_name = (stem filename).toList then .ok (root_name, children)
    else .error ("Malformed verified footprint " ++ vendor.repr asset)
  | _ => .error ("Malformed verified footprint " ++ vendor.repr asset)

/-- `render_verified_footprint`: the footprint of a component on the board, and the seeds of its identities. -/
def renderVerifiedFootprint (float : ℚ → String) (asset : String) : Except String (SexpNode × List String) := do
  let (filename, root) ← vendor.verifiedFootprint asset
  let (root_name, children) ← sourceChildren vendor asset filename root
  let embedded ← Lists.gather (embedChild vendor uuidFor inst) children.zipIdx
  let properties_seen := embedded.flatMap Embedded.properties_seen
  if "Reference".toList ∉ properties_seen ∨ "Value".toList ∉ properties_seen then
    .error ("Verified library missing editable reference/value fields: " ++ vendor.repr inst.component.ref)
  else
    let description := if "Description".toList ∈ properties_seen then [] else [descriptionNode]
    let mapped_pads := embedded.flatMap Embedded.mapped_pads
    if ∀ pad ∈ expectedPads inst.component, pad ∈ mapped_pads then
      return (list (footprintHead uuidFor inst float root_name ++ embedded.map Embedded.node ++ description),
        ("footprint-" ++ inst.component.ref) :: embedded.flatMap Embedded.seeds)
    else .error ("Verified footprint missing physical pin identifiers: " ++ vendor.repr inst.component.ref)

end

end ZapTrace.VerifiedFootprint
