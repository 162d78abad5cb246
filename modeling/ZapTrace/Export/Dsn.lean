import ZapTrace.Algo.GridRouter
import ZapTrace.Core.Models
import ZapTrace.Export.Board

/-!
# Specctra DSN files

The sections of a file are written one by one: a component stands under its id in the placement and among the images,
a net lists its nodes as they are, and a padstack is shared by the pads that have the same rounded sizes.

A section is the list of its records here. The width of the traces of a net, which comes from the knowledge base, is a
parameter.
-/

namespace ZapTrace.Dsn

/-! ## The design, as far as the writer reads it -/

structure LayerSpec where
  name : String
  type : String := "signal"

structure BoardDefinition where
  layer_stack : List LayerSpec := []
  outline : List (ℚ × ℚ) := []

structure Design where
  name : String
  components : Dict String (Fabrication.Component ℚ) := .empty
  nets : Dict String Models.Net := .empty
  board_def : Option BoardDefinition := none
  placement : Option (Dict String (Fabrication.Placement ℚ)) := none

def padsOf (component : Fabrication.Component ℚ) : List (Fabrication.Pad ℚ) :=
  match component.footprint_def with
  | none => []
  | some footprint => footprint.pads

/-! ## Numbers -/

/-- A number with a fixed count of decimals. -/
def fixed (digits : ℕ) (q : ℚ) : String :=
  let n := (pyRound (|q| * 10 ^ digits)).natAbs
  let decimals := String.ofList ((toString (n % 10 ^ digits)).toList.leftpad digits '0')
  (if q < 0 then "-" else "") ++ toString (n / 10 ^ digits) ++ "." ++ decimals

/-! ## Structure -/

def layerSpecs (design : Design) : List LayerSpec :=
  match design.board_def with
  | none => []
  | some board => board.layer_stack

def layerNames (design : Design) : List String := (layerSpecs design).map LayerSpec.name

/-! ## Placement -/

/-- `(place name x y front rotation)` -/
structure Place where
  name : String
  position : ℚ × ℚ
  rotation : ℚ

def componentPlacement (design : Design) (component_id : String) (component : Fabrication.Component ℚ) : (ℚ × ℚ) × ℚ :=
  match design.placement.bind fun placement => placement.get? component_id with
  | some placement => ((placement.x, placement.y), placement.rotation.getD 0)
  | none =>
    match component.position with
    | some position => (position, 0)
    | none => ((0, 0), 0)

def withPads (design : Design) : List (String × Fabrication.Component ℚ) :=
  design.components.items.filter fun item => padsOf item.2 ≠ []

def places (design : Design) : List Place :=
  (withPads design).map fun item =>
    let placement := componentPlacement design item.1 item.2
    ⟨item.1, placement.1, placement.2⟩

/-! ## Library -/

/-- What a padstack has on a layer. -/
inductive Figure
  | circle (radius : String)
  | rect (x1 y1 x2 y2 : String)
  deriving DecidableEq

/-- `(shape (circle layer radius))`, `(shape (rect layer x1 y1 x2 y2))` -/
structure Shape where
  layer : String
  figure : Figure
  deriving DecidableEq

/-- `(padstack name shapes)` -/
structure Padstack where
  name : String
  shapes : List Shape

/-- `(pin padstack id x y)` -/
structure ImagePin where
  padstack : String
  id : String
  position : ℚ × ℚ

/-- `(image name pins)` -/
structure Image where
  name : String
  pins : List ImagePin

def shapeValue : Fabrication.PadShape → String
  | .rect => "rect"
  | .circle => "circle"
  | .oval => "oval"
  | .roundrect => "roundrect"
  | .custom => "custom"

def padLayerName (pad : Fabrication.Pad ℚ) (layer_names : List String) : String :=
  let layer_name := layer_names.head?.getD "F.Cu"
  if pad.layer = .bottom ∧ 1 < layer_names.length then layer_names.getLast?.getD layer_name else layer_name

/-- A text with underscores for points. -/
def underscored (s : String) : String := String.ofList (s.toList.map fun c => if c = '.' then '_' else c)

def padstackName (pad : Fabrication.Pad ℚ) (layer_name : String) : String :=
  underscored s!"Pad_{shapeValue pad.shape}_{fixed 2 pad.size.1}x{fixed 2 pad.size.2}_{layer_name}"

/-- A circle, and a rectangle for every other shape. -/
def padFigure (pad : Fabrication.Pad ℚ) : Figure :=
  if pad.shape = .circle then .circle (fixed 4 (pad.size.1 / 2))
  else
    .rect (fixed 4 (-pad.size.1 / 2)) (fixed 4 (-pad.size.2 / 2)) (fixed 4 (pad.size.1 / 2)) (fixed 4 (pad.size.2 / 2))

def padstackShape (pad : Fabrication.Pad ℚ) (layer_name : String) : Shape := ⟨layer_name, padFigure pad⟩

def imagePin (layer_names : List String) (pad : Fabrication.Pad ℚ) : ImagePin :=
  ⟨padstackName pad (padLayerName pad layer_names), pad.id, pad.position⟩

def images (design : Design) : List Image :=
  (withPads design).map fun item => ⟨item.1, (padsOf item.2).map (imagePin (layerNames design))⟩

def allPads (design : Design) : List (Fabrication.Pad ℚ) := (withPads design).flatMap fun item => padsOf item.2

def padstackEntries (layer_names : List String) (pads : List (Fabrication.Pad ℚ)) : Dict String (Fabrication.Pad ℚ × String) :=
  pads.foldl (fun padstacks pad =>
    let layer_name := padLayerName pad layer_names
    let padstack_name := padstackName pad layer_name
    if padstack_name ∈ padstacks.keys then padstacks else padstacks.set padstack_name (pad, layer_name)) .empty

def padstacks (design : Design) : List Padstack :=
  (padstackEntries (layerNames design) (allPads design)).items.map fun item =>
    ⟨item.1, [padstackShape item.2.1 item.2.2]⟩

/-! ## Network -/

/-- `(net name (pins ref-pin …))` -/
structure NetRecord where
  name : String
  /-- The reference and the pin of each token. -/
  pins : List (String × String)

def token (pin : String × String) : String := s!"{pin.1}-{pin.2}"

def netRecord (net : Models.Net) : NetRecord :=
  ⟨net.name, net.nodes.map fun node => (node.component_ref, node.pin_name)⟩

def networkNets (design : Design) : List NetRecord := design.nets.values.map netRecord

/-! ## The file -/

end ZapTrace.Dsn
