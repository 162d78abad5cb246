import Mathlib.Algebra.Order.Group.Unbundled.Abs
import Mathlib.Logic.Relation
import ZapTrace.Export.Kicad
import ZapTrace.Library.Lists

/-!
# The schematic of the KiCad export

Every component is a symbol on a grid, with its pins in rows on its left and right side. From each pin a wire
leads away from the symbol, to a global label with the name of a net. The width of a symbol grows with the names
of its pins, the columns of the grid stay where they are. Lengths are in hundredths of a millimetre.

## Main results

* `buildSchematic_eq_ok_iff`: when there is a schematic, and which
* `mem_elements_iff`: the pins, wires and labels of a schematic
-/

namespace ZapTrace.Kicad

open List Except

open Lists (mapM_eq_ok_iff)

inductive SchematicError
  /-- The symbols do not fit on any page. -/
  | tooLarge
  /-- The footprint asset of a component is not what was verified. -/
  | asset (message : String)
  deriving DecidableEq

/-- A position, in hundredths of a millimetre. -/
abbrev Position := ℤ × ℤ

/-- A character in a quoted string. -/
def escapedChar (c : Char) : List Char :=
  if c = '\\' then ['\\', '\\'] else if c = '"' then ['\\', '"'] else [c]

def schematicString (value : String) : String := String.ofList (value.toList.flatMap escapedChar)

/-! ## Geometry -/

def pinRows (pin_count : ℕ) : ℤ := max 1 ((pin_count + 1) / 2 : ℕ)

def longestName (names : List String) : ℤ := (names.map String.length).foldl max 0

/-- Half of the width and of the height of a symbol, and how far away its properties are. -/
def schematicGeometry (nodes : List (String × String)) : ℤ × ℤ × ℤ :=
  let rows := pinRows nodes.length
  let body_half_width := max 1397 (longestName (nodes.map Prod.fst) * 90 + 635)
  let body_half_height := max 508 ((rows - 1) * 254 + 254)
  (body_half_width, body_half_height, body_half_height + 381)

/-- The pages with their width, height, and columns. -/
def schematicPages : List (String × ℤ × ℤ × ℕ) :=
  [("A4", 29700, 21000, 3), ("A3", 42000, 29700, 4), ("A2", 59400, 42000, 6), ("A1", 84100, 59400, 8),
    ("A0", 118900, 84100, 12)]

def gridRowSpacing (max_pins : ℕ) : ℤ := max 6731 (pinRows max_pins * 508 + 2286)

def gridFits (component_count max_pins : ℕ) : String × ℤ × ℤ × ℕ → Bool
  | (_, page_width, page_height, columns) =>
    let row_spacing := gridRowSpacing max_pins
    let (_, half_height, property_distance) := schematicGeometry (replicate max_pins ("PIN", "NET"))
    let rows : ℤ := ((component_count + columns - 1) / columns : ℕ)
    let last_x := 5080 + ((min component_count columns : ℕ) - 1) * 8890
    let last_y := 5080 + (rows - 1) * row_spacing
    last_x + 3556 < page_width ∧ last_y + property_distance + 800 < page_height ∧ 2 * half_height < row_spacing

def pageLayout (row_spacing : ℤ) : Option (String × ℤ × ℤ × ℕ) → Except SchematicError (String × ℕ × ℤ)
  | none => .error .tooLarge
  | some (page, _, _, columns) => .ok (page, columns, row_spacing)

/-- The first page on which the grid fits, its columns, and how far apart the rows of the grid are. -/
def schematicPageLayout (component_count max_pins : ℕ) : Except SchematicError (String × ℕ × ℤ) :=
  pageLayout (gridRowSpacing max_pins) (schematicPages.find? (gridFits component_count max_pins))
variable {columns : ℕ}

theorem pageLayout_eq_ok {row_spacing row_spacing' : ℤ} {found : Option (String × ℤ × ℤ × ℕ)} {page : String}
    (h : pageLayout row_spacing found = .ok (page, columns, row_spacing')) : row_spacing' = row_spacing := by
  cases found with
  | none => cases h
  | some found =>
    cases h
    rfl

def schematicComponentPosition (index columns : ℕ) (row_spacing : ℤ) : Position :=
  (5080 + (index % columns : ℕ) * 8890, 5080 + (index / columns : ℕ) * row_spacing)

/-- The position of a pin on its symbol, and its rotation. Pins are on the left and right side in turn. -/
def schematicPinGeometry (index pin_count : ℕ) (half_width : ℤ) : ℤ × ℤ × ℕ :=
  let left_side := index % 2 = 0
  (if left_side then -half_width - 254 else half_width + 254,
    (pinRows pin_count - 1 - 2 * (index / 2 : ℕ)) * 254,
    if left_side then 0 else 180)

/-- Half of the width of the symbol of a component, with room for the names of its logical pins. -/
def symbolHalfWidth (component : Component) (nodes : List (String × String)) : ℤ :=
  let half_width := (schematicGeometry nodes).1
  if component.package_pin_map.items = [] then half_width
  else
    let longest := longestName (nodes.map fun (pin, _) => (component.package_pin_map.get? pin).getD pin)
    max half_width (longest * 90 + 635)

/-! ## Symbols -/

structure LibraryPin where
  position : Position
  rotation : ℕ
  name : String
  number : String

def schematicLibrarySymbol (component : Component) (nodes : List (String × String)) : List LibraryPin :=
  nodes.zipIdx.map fun ((physical_pin, _), pin_index) =>
    let (local_x, local_y, rotation) := schematicPinGeometry pin_index nodes.length (symbolHalfWidth component nodes)
    { position := (local_x, local_y)
      rotation := rotation
      name := schematicString ((component.package_pin_map.get? physical_pin).getD physical_pin)
      number := schematicString physical_pin }

/-- A symbol on the sheet. In a symbol the second coordinate goes up, on the sheet it goes down. -/
structure PlacedSymbol where
  position : Position
  symbol : List LibraryPin

def PlacedSymbol.pinPosition (placed : PlacedSymbol) (pin : LibraryPin) : Position :=
  (placed.position.1 + pin.position.1, placed.position.2 - pin.position.2)

structure Wire where
  start : Position
  stop : Position

structure GlobalLabel where
  text : String
  position : Position
  angle : ℕ

def labelStub (component : Component) (nodes : List (String × String)) (position : Position) (pin_index : ℕ)
    (net_name : String) : Wire × GlobalLabel :=
  let (local_x, local_y, _) := schematicPinGeometry pin_index nodes.length (symbolHalfWidth component nodes)
  let label_angle := if local_x < 0 then 180 else 0
  let pin_x := position.1 + local_x
  let pin_y := position.2 - local_y
  let label_x := pin_x + if local_x < 0 then -762 else 762
  (⟨(pin_x, pin_y), (label_x, pin_y)⟩, ⟨schematicString net_name, (label_x, pin_y), label_angle⟩)

/-- The symbol of a component, with the wires and labels of its pins. What is wrong with the footprint asset of
a component is a parameter. -/
def schematicSymbolInstance (assetError : Component → Option String) (component : Component)
    (nodes : List (String × String)) (index columns : ℕ) (row_spacing : ℤ) :
    Except SchematicError (PlacedSymbol × List (Wire × GlobalLabel)) :=
  let position := schematicComponentPosition index columns row_spacing
  match assetError component with
  | some message => .error (.asset message)
  | none =>
    .ok (⟨position, schematicLibrarySymbol component nodes⟩,
      nodes.zipIdx.map fun ((_, net_name), pin_index) => labelStub component nodes position pin_index net_name)

structure Sheet where
  page : String
  symbols : List PlacedSymbol
  labels : List (Wire × GlobalLabel)

/-- The components with their symbol pins. -/
def componentNodes (design : Design) : List (Component × List (String × String)) :=
  design.components.values.map fun component => (component, schematicNodesForComponent design component)

def maxPins (design : Design) : ℕ := ((componentNodes design).map fun (_, nodes) => nodes.length).foldl max 0

def buildSchematic (assetError : Component → Option String) (design : Design) : Except SchematicError Sheet := do
  let component_nodes := componentNodes design
  let (page, columns, row_spacing) ← schematicPageLayout component_nodes.length (maxPins design)
  let instances ← component_nodes.zipIdx.mapM fun ((component, nodes), index) =>
    schematicSymbolInstance assetError component nodes index columns row_spacing
  return ⟨page, instances.map Prod.fst, instances.flatMap Prod.snd⟩

/-! ## Connections -/

/-- What can be connected: a pin of a symbol, a wire, or a label. -/
inductive Element
  | pin (symbol index : ℕ) (position : Position)
  | wire (start stop : Position)
  | label (text : String) (position : Position)
  deriving DecidableEq

/-- The points of an element. Wires are along an axis. -/
def Element.Covers : Element → Position → Prop
  | pin _ _ position, p => p = position
  | wire start stop, p => (min start.1 stop.1 ≤ p.1 ∧ p.1 ≤ max start.1 stop.1) ∧
      min start.2 stop.2 ≤ p.2 ∧ p.2 ≤ max start.2 stop.2
  | label _ position, p => p = position

/-- Elements that share a point, or labels with one text. -/
def Element.Joined (e f : Element) : Prop :=
  (∃ p, e.Covers p ∧ f.Covers p) ∨ ∃ text p q, e = .label text p ∧ f = .label text q

def Sheet.elements (sheet : Sheet) : List Element :=
  (sheet.symbols.zipIdx.flatMap fun (placed, i) =>
    placed.symbol.zipIdx.map fun (pin, k) => .pin i k (placed.pinPosition pin)) ++
  sheet.labels.flatMap fun (wire, label) => [.wire wire.start wire.stop, .label label.text label.position]

def Sheet.Connected (sheet : Sheet) : Element → Element → Prop :=
  Relation.ReflTransGen fun e f => f ∈ sheet.elements ∧ e.Joined f

/-! ## The elements of a schematic -/

def instanceOf (columns : ℕ) (row_spacing : ℤ) (entry : (Component × List (String × String)) × ℕ) :
    PlacedSymbol × List (Wire × GlobalLabel) :=
  let position := schematicComponentPosition entry.2 columns row_spacing
  (⟨position, schematicLibrarySymbol entry.1.1 entry.1.2⟩,
    entry.1.2.zipIdx.map fun ((_, net_name), pin_index) =>
      labelStub entry.1.1 entry.1.2 position pin_index net_name)

def sheetOf (design : Design) (page : String) (columns : ℕ) (row_spacing : ℤ) : Sheet where
  page := page
  symbols := (componentNodes design).zipIdx.map fun entry => (instanceOf columns row_spacing entry).1
  labels := (componentNodes design).zipIdx.flatMap fun entry => (instanceOf columns row_spacing entry).2
variable {row_spacing : ℤ}

theorem schematicSymbolInstance_eq_ok_iff {assetError : Component → Option String}
    {entry : (Component × List (String × String)) × ℕ} {result : PlacedSymbol × List (Wire × GlobalLabel)} :
    schematicSymbolInstance assetError entry.1.1 entry.1.2 entry.2 columns row_spacing = .ok result ↔
      assetError entry.1.1 = none ∧ instanceOf columns row_spacing entry = result := by
  unfold schematicSymbolInstance
  cases assetError entry.1.1 with
  | some message =>
    constructor
    · intro h
      cases h
    · rintro ⟨h, -⟩
      cases h
  | none =>
    show ok (instanceOf columns row_spacing entry) = ok _ ↔ _
    rw [ok.injEq, eq_self, true_and]
variable {design : Design}

theorem forall_zipIdx_componentNodes {P : Component → Prop} :
    (∀ entry ∈ (componentNodes design).zipIdx, P entry.1.1) ↔ ∀ component ∈ design.components.values, P component := by
  constructor
  · intro h component hmem
    obtain ⟨i, hi⟩ := mem_iff_getElem?.mp hmem
    refine h ((component, schematicNodesForComponent design component), i) (mem_zipIdx_iff_getElem?.mpr ?_)
    rw [componentNodes, getElem?_map, hi, Option.map_some]
  · rintro h ⟨⟨component, nodes⟩, i⟩ hmem
    obtain ⟨component', hmem', heq⟩ := mem_map.mp (mem_of_getElem? (mem_zipIdx_iff_getElem?.mp hmem))
    cases heq
    exact h component hmem'

/-- There is a schematic when the symbols fit on a page and no footprint asset is wrong. -/
theorem buildSchematic_eq_ok_iff {assetError : Component → Option String} {sheet : Sheet} :
    buildSchematic assetError design = .ok sheet ↔
      (∀ component ∈ design.components.values, assetError component = none) ∧
        ∃ page columns row_spacing, schematicPageLayout (componentNodes design).length (maxPins design) =
          .ok (page, columns, row_spacing) ∧ sheet = sheetOf design page columns row_spacing := by
  unfold buildSchematic
  dsimp only
  cases schematicPageLayout (componentNodes design).length (maxPins design) with
  | error e =>
    constructor
    · intro h
      cases h
    · rintro ⟨-, _, _, _, h, -⟩
      cases h
  | ok layout =>
    obtain ⟨page, columns, row_spacing⟩ := layout
    -- all instances are made when no asset is wrong
    have hinstances : ∀ instances, ((componentNodes design).zipIdx.mapM fun entry =>
        schematicSymbolInstance assetError entry.1.1 entry.1.2 entry.2 columns row_spacing) = .ok instances ↔
        (∀ component ∈ design.components.values, assetError component = none) ∧
          (componentNodes design).zipIdx.map (instanceOf columns row_spacing) = instances := by
      intro instances
      rw [mapM_eq_ok_iff]
      simp only [schematicSymbolInstance_eq_ok_iff]
      rw [forall₂_and_left (p := fun entry : (Component × List (String × String)) × ℕ => assetError entry.1.1 = none),
        forall_zipIdx_componentNodes (P := fun component => assetError component = none), ← forall₂_eq_eq_eq,
        forall₂_map_left_iff]
    show (((componentNodes design).zipIdx.mapM fun entry =>
      schematicSymbolInstance assetError entry.1.1 entry.1.2 entry.2 columns row_spacing) >>= fun instances =>
        ok (Sheet.mk page (instances.map Prod.fst) (instances.flatMap Prod.snd))) = ok sheet ↔ _
    generalize ((componentNodes design).zipIdx.mapM fun entry =>
      schematicSymbolInstance assetError entry.1.1 entry.1.2 entry.2 columns row_spacing) = run at hinstances ⊢
    cases run with
    | error e =>
      constructor
      · intro h
        cases h
      · rintro ⟨hassets, -⟩
        cases (hinstances _).mpr ⟨hassets, rfl⟩
    | ok instances =>
      obtain ⟨hassets, rfl⟩ := (hinstances instances).mp rfl
      show ok (Sheet.mk page _ _) = _ ↔ _
      rw [map_map, flatMap_map]
      constructor
      · intro h
        cases h
        exact ⟨hassets, page, columns, row_spacing, rfl, rfl⟩
      · rintro ⟨-, _, _, _, hlayout, rfl⟩
        cases hlayout
        rfl

theorem getElem?_zipIdx_eq_some_iff {α : Type} {xs : List α} {i j : ℕ} {x : α} :
    xs.zipIdx[i]? = some (x, j) ↔ xs[i]? = some x ∧ j = i := by
  rw [getElem?_zipIdx, Option.map_eq_some_iff]
  constructor
  · rintro ⟨y, hy, heq⟩
    cases heq
    exact ⟨hy, Nat.zero_add i⟩
  · rintro ⟨hx, rfl⟩
    exact ⟨x, hx, by rw [Nat.zero_add]⟩

/-- The pin, the wire and the label for one pin of a symbol. -/
def stubElements (i k : ℕ) (stub : Wire × GlobalLabel) : List Element :=
  [.pin i k stub.1.start, .wire stub.1.start stub.1.stop, .label stub.2.text stub.2.position]

def stubOf (design : Design) (columns : ℕ) (row_spacing : ℤ) (i k : ℕ) : Option (Wire × GlobalLabel) :=
  (componentNodes design)[i]?.bind fun (component, nodes) => nodes[k]?.map fun (_, net_name) =>
    labelStub component nodes (schematicComponentPosition i columns row_spacing) k net_name

theorem stubOf_eq_some_iff {i k : ℕ} {stub : Wire × GlobalLabel} :
    stubOf design columns row_spacing i k = some stub ↔
      ∃ component nodes node, (componentNodes design)[i]? = some (component, nodes) ∧ nodes[k]? = some node ∧
        labelStub component nodes (schematicComponentPosition i columns row_spacing) k node.2 = stub := by
  unfold stubOf
  rw [Option.bind_eq_some_iff]
  constructor
  · rintro ⟨⟨component, nodes⟩, hcomponent, hstub⟩
    obtain ⟨node, hnode, rfl⟩ := Option.map_eq_some_iff.mp hstub
    exact ⟨component, nodes, node, hcomponent, hnode, rfl⟩
  · rintro ⟨component, nodes, node, hcomponent, hnode, rfl⟩
    exact ⟨(component, nodes), hcomponent, Option.map_eq_some_iff.mpr ⟨node, hnode, rfl⟩⟩

/-- The elements of a sheet are the pins, wires and labels for the pins of the design. A wire starts at its pin. -/
theorem mem_elements_iff {page : String} {e : Element} :
    e ∈ (sheetOf design page columns row_spacing).elements ↔
      ∃ i k stub, stubOf design columns row_spacing i k = some stub ∧ e ∈ stubElements i k stub := by
  unfold Sheet.elements sheetOf
  rw [mem_append]
  constructor
  · rintro (h | h)
    · obtain ⟨⟨placed, i⟩, hplaced, hpin⟩ := mem_flatMap.mp h
      obtain ⟨⟨pin, k⟩, hk, rfl⟩ := mem_map.mp hpin
      rw [mem_zipIdx_iff_getElem?, getElem?_map, Option.map_eq_some_iff] at hplaced
      obtain ⟨⟨⟨component, nodes⟩, i'⟩, hentry, rfl⟩ := hplaced
      obtain ⟨hcomponent, rfl⟩ := getElem?_zipIdx_eq_some_iff.mp hentry
      dsimp only [instanceOf, schematicLibrarySymbol] at hk
      rw [mem_zipIdx_iff_getElem?, getElem?_map, Option.map_eq_some_iff] at hk
      obtain ⟨⟨node, k'⟩, hnode, rfl⟩ := hk
      obtain ⟨hnode, rfl⟩ := getElem?_zipIdx_eq_some_iff.mp hnode
      exact ⟨_, _, _, stubOf_eq_some_iff.mpr ⟨component, nodes, node, hcomponent, hnode, rfl⟩, .head _⟩
    · obtain ⟨stub, hstub, he⟩ := mem_flatMap.mp h
      obtain ⟨⟨⟨component, nodes⟩, i⟩, hentry, hstub⟩ := mem_flatMap.mp hstub
      obtain ⟨⟨node, k⟩, hnode, rfl⟩ := mem_map.mp hstub
      exact ⟨i, k, _, stubOf_eq_some_iff.mpr ⟨component, nodes, node, mem_zipIdx_iff_getElem?.mp hentry,
        mem_zipIdx_iff_getElem?.mp hnode, rfl⟩, .tail _ he⟩
  · rintro ⟨i, k, stub, hstub, he⟩
    obtain ⟨component, nodes, node, hcomponent, hnode, rfl⟩ := stubOf_eq_some_iff.mp hstub
    have hentry : ((component, nodes), i) ∈ (componentNodes design).zipIdx := mem_zipIdx_iff_getElem?.mpr hcomponent
    rcases mem_cons.mp he with rfl | he
    · refine .inl (mem_flatMap.mpr ⟨((instanceOf columns row_spacing ((component, nodes), i)).1, i), ?_, ?_⟩)
      · rw [mem_zipIdx_iff_getElem?, getElem?_map, getElem?_zipIdx_eq_some_iff.mpr ⟨hcomponent, rfl⟩]
        rfl
      · have hpin : (schematicLibrarySymbol component nodes)[k]? = some
            { position := ((schematicPinGeometry k nodes.length (symbolHalfWidth component nodes)).1,
                (schematicPinGeometry k nodes.length (symbolHalfWidth component nodes)).2.1)
              rotation := (schematicPinGeometry k nodes.length (symbolHalfWidth component nodes)).2.2
              name := schematicString ((component.package_pin_map.get? node.1).getD node.1)
              number := schematicString node.1 } := by
          unfold schematicLibrarySymbol
          rw [getElem?_map, getElem?_zipIdx_eq_some_iff.mpr ⟨hnode, rfl⟩]
          rfl
        exact mem_map.mpr ⟨(_, k), mem_zipIdx_iff_getElem?.mpr hpin, rfl⟩
    · refine .inr (mem_flatMap.mpr ⟨_, mem_flatMap.mpr ⟨_, hentry, ?_⟩, he⟩)
      exact mem_map.mpr ⟨(node, k), mem_zipIdx_iff_getElem?.mpr hnode, rfl⟩

end ZapTrace.Kicad
