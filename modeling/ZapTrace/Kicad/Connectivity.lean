import Mathlib.Data.List.MinMax
import ZapTrace.Algo.GridRouter
import ZapTrace.Library.UnionFind

/-!
# Connectivity of a flat schematic

How the schematic importer makes nets of a drawing. The end points of wires, the junctions and the labels are
numbered in the order in which they come, with one number for all points of a grid step; a wire joins the
numbers of its two ends. Labels and pins are then collected by the representative of their point, a pin only if
its point has a number. Each group is named by its best label, or from the number of its representative.

Coordinates are rational numbers. The iteration order of a set of numbers is a parameter, and so is the hash.
-/

namespace ZapTrace.SchematicImporter

/-- What the importer uses of the runtime: a hash, and the order in which a set of numbers is iterated. -/
structure Runtime where
  /-- The hexadecimal digest of a text. -/
  sha256 : String → String
  /-- The elements of a set in the order of an iteration. -/
  setOrder : List ℕ → List ℕ
  setOrder_perm : ∀ ks, (setOrder ks).Perm ks.dedup

abbrev Coord := ℚ × ℚ

/-- The number of a grid step, in both directions. -/
abbrev Point := ℤ × ℤ

abbrev Wire := Coord × Coord

/-- A component instance. -/
structure Symbol where
  lib_id : String
  ref : String
  value : String
  footprint : String
  at_ : Coord
  angle : ℚ
  unit : ℤ
  pins : List (String × ℚ × ℚ)

inductive LabelKind
  | label
  | global_label
  | hierarchical_label
  deriving DecidableEq

structure Label where
  name : String
  kind : LabelKind
  coord : Coord

/-- The precision of a coordinate. -/
def coordEpsilon : ℚ := 1 / 100

def kindPriority : LabelKind → ℕ
  | .global_label => 0
  | .hierarchical_label => 1
  | .label => 2

def quantise (xy : Coord) : Point := (pyRound (xy.1 / coordEpsilon), pyRound (xy.2 / coordEpsilon))

/-- The points that have a number, and the classes of the numbers. -/
structure Graph where
  coords : List Coord
  coord_idx : Dict Point ℕ
  uf : UnionFind ℕ

def Graph.empty : Graph := ⟨[], .empty, .empty⟩

/-- The number of a point, which gets the next one if it has none. -/
def getOrAddCoord (xy : Coord) (g : Graph) : ℕ × Graph :=
  match g.coord_idx.get? (quantise xy) with
  | some i => (i, g)
  | none =>
    (g.coords.length,
      { g with coord_idx := g.coord_idx.set (quantise xy) g.coords.length, coords := g.coords ++ [xy] })

def unionWire (g : Graph) (wire : Wire) : Graph :=
  let start := getOrAddCoord wire.1 g
  let stop := getOrAddCoord wire.2 start.2
  { stop.2 with uf := stop.2.uf.union start.1 stop.1 }

def unionWires (wires : List Wire) (g : Graph) : Graph := wires.foldl unionWire g

/-- A junction that has a number is joined with itself, and another gets a number. -/
def mergeJunction (g : Graph) (junction : Coord) : Graph :=
  match g.coord_idx.get? (quantise junction) with
  | some ji => { g with uf := g.uf.union ji ji }
  | none => (getOrAddCoord junction g).2

def mergeJunctions (junctions : List Coord) (g : Graph) : Graph := junctions.foldl mergeJunction g

/-- Names and pins by the representative of their point. -/
abbrev Groups := Dict ℕ (List (String × LabelKind))

abbrev PinGroups := Dict ℕ (List (String × String))

def groupLabel (state : Groups × Graph) (label : Label) : Groups × Graph :=
  let point := getOrAddCoord label.coord state.2
  let root := point.2.uf.find point.1
  (state.1.set root.1 ((state.1.get? root.1).getD [] ++ [(label.name, label.kind)]), { point.2 with uf := root.2 })

def groupLabels (labels : List Label) (g : Graph) : Groups × Graph := labels.foldl groupLabel (.empty, g)

def bestName (group_labels : List (String × LabelKind)) : String :=
  match group_labels.argmin fun label => kindPriority label.2 with
  | none => ""
  | some label => label.1

def groupPin (coord_idx : Dict Point ℕ) (ref : String) (state : PinGroups × UnionFind ℕ) (pin : String × ℚ × ℚ) :
    PinGroups × UnionFind ℕ :=
  match coord_idx.get? (quantise pin.2) with
  | none => state
  | some gi =>
    let root := state.2.find gi
    (state.1.set root.1 ((state.1.get? root.1).getD [] ++ [(ref, pin.1)]), root.2)

def groupPins (symbols : List Symbol) (coord_idx : Dict Point ℕ) (uf : UnionFind ℕ) : PinGroups × UnionFind ℕ :=
  symbols.foldl (fun state sym => sym.pins.foldl (groupPin coord_idx sym.ref) state) (.empty, uf)

/-- The name from the hash of a representative. -/
def autoName (runtime : Runtime) (root : ℕ) : String :=
  "net_" ++ String.ofList ((runtime.sha256 (toString root)).toList.take 8)

def netName (runtime : Runtime) (label_groups : Groups) (root : ℕ) : String :=
  let net_name := bestName ((label_groups.get? root).getD [])
  if net_name = "" then autoName runtime root else net_name

def nameNets (runtime : Runtime) (all_roots : List ℕ) (label_groups : Groups) (group_pins : PinGroups) :
    Dict String (List (String × String)) :=
  (runtime.setOrder all_roots).foldl (fun nets root =>
    let net_name := netName runtime label_groups root
    let pins := (group_pins.get? root).getD []
    match nets.get? net_name with
    | some old => nets.set net_name (old ++ pins)
    | none => nets.set net_name pins) .empty

/-- The nets of a drawing, by name, with their pins. -/
def resolveConnectivity (runtime : Runtime) (symbols : List Symbol) (wires : List Wire) (junctions : List Coord)
    (labels : List Label) : Dict String (List (String × String)) :=
  let g := mergeJunctions junctions (unionWires wires .empty)
  let labelled := groupLabels labels g
  let pinned := groupPins symbols labelled.2.coord_idx labelled.2.uf
  let all_roots := pinned.2.groups.1.keys ++ labelled.1.keys ++ pinned.1.keys
  nameNets runtime all_roots labelled.1 pinned.1

end ZapTrace.SchematicImporter
