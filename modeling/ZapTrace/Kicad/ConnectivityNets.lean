import Mathlib.Analysis.Convex.Segment
import ZapTrace.Algo.Rounding
import ZapTrace.Kicad.Connectivity

/-!
# What the nets of a drawing connect

The drawing says which points are connected: the ends of a wire, a junction and the wire it lies on, and labels
with one name. The importer sees less: a junction inside a wire stays apart from it, a group has the name of its
best label only, and a pin away from the ends of wires, junctions and labels has no net. It also sees more when
the name that a group without a name gets is that of another group.

## Main results

* `inNet_iff`: the pins of a net are those at the points with its name
* `resolves_iff`: the nets are those of the drawing when no connection is lost and no name clashes
-/

namespace ZapTrace.SchematicImporter

open UnionFind (merge)

attribute [local irreducible] UnionFind.find UnionFind.union

/-! ## Points in order -/

section AddNew

variable {α : Type} [DecidableEq α]

/-- A value comes last unless it is there. -/
def addNew (xs : List α) (x : α) : List α := if x ∈ xs then xs else xs ++ [x]
variable {xs : List α}

theorem mem_addNew {x y : α} : y ∈ addNew xs x ↔ y ∈ xs ∨ y = x := by
  unfold addNew
  split
  · rename_i hx
    exact ⟨Or.inl, fun h => h.elim id fun heq => heq ▸ hx⟩
  · rw [List.mem_append, List.mem_singleton]

theorem prefix_addNew (xs : List α) (x : α) : xs <+: addNew xs x := by
  unfold addNew
  split
  · exact List.prefix_rfl
  · exact List.prefix_append _ _

theorem mem_foldl_addNew {xs ys : List α} {x : α} : x ∈ ys.foldl addNew xs ↔ x ∈ xs ∨ x ∈ ys := by
  induction ys generalizing xs with
  | nil => simp
  | cons y ys ih => rw [List.foldl_cons, ih, mem_addNew, List.mem_cons, or_assoc]

theorem prefix_foldl_addNew (xs ys : List α) : xs <+: ys.foldl addNew xs := by
  induction ys generalizing xs with
  | nil => exact List.prefix_rfl
  | cons y ys ih => exact (prefix_addNew xs y).trans (ih _)

/-- The values in the order of their first occurrence. -/
def distinct (xs : List α) : List α := xs.foldl addNew []

theorem mem_distinct {x : α} : x ∈ distinct xs ↔ x ∈ xs := by
  unfold distinct
  rw [mem_foldl_addNew]
  exact ⟨fun h => h.elim (fun hnil => absurd hnil List.not_mem_nil) id, Or.inr⟩

/-- The place of a value, counted from the first. -/
def place (xs : List α) (x : α) : ℕ := xs.idxOf x

theorem place_mono {xs ys : List α} (h : xs <+: ys) {x : α} (hx : x ∈ xs) : place ys x = place xs x := by
  obtain ⟨zs, rfl⟩ := h
  exact List.idxOf_append_of_mem hx

theorem place_append_self {x : α} (hx : x ∉ xs) : place (xs ++ [x]) x = xs.length := by
  rw [place, List.idxOf_append_of_notMem hx, List.idxOf_cons_self, Nat.add_zero]

theorem place_inj {x y : α} (hx : x ∈ xs) (hy : y ∈ xs) : place xs x = place xs y ↔ x = y :=
  List.idxOf_inj hx

end AddNew

structure Numbers (g : Graph) (ps : List Point) : Prop where
  length_coords : g.coords.length = ps.length
  get?_coord_idx : ∀ p, g.coord_idx.get? p = if p ∈ ps then some (place ps p) else none

theorem numbers_empty : Numbers .empty [] := ⟨rfl, fun _ => rfl⟩

theorem Numbers.with_uf {g : Graph} {ps : List Point} (h : Numbers g ps) (uf : UnionFind ℕ) :
    Numbers { g with uf := uf } ps := ⟨h.length_coords, h.get?_coord_idx⟩

theorem getOrAddCoord_spec {g : Graph} {ps : List Point} (h : Numbers g ps) (xy : Coord) :
    (getOrAddCoord xy g).1 = place (addNew ps (quantise xy)) (quantise xy) ∧
      Numbers (getOrAddCoord xy g).2 (addNew ps (quantise xy)) ∧ (getOrAddCoord xy g).2.uf = g.uf := by
  by_cases hmem : quantise xy ∈ ps
  · have hget := h.get?_coord_idx (quantise xy)
    rw [if_pos hmem] at hget
    rw [getOrAddCoord, hget, addNew, if_pos hmem]
    exact ⟨rfl, h, rfl⟩
  · have hget := h.get?_coord_idx (quantise xy)
    rw [if_neg hmem] at hget
    rw [getOrAddCoord, hget, addNew, if_neg hmem]
    refine ⟨?_, ⟨?_, fun p => ?_⟩, rfl⟩
    · rw [place_append_self hmem]
      exact h.length_coords
    · simp only [List.length_append, List.length_singleton, h.length_coords]
    · show (g.coord_idx.set (quantise xy) g.coords.length).get? p = _
      rw [Dict.get?_set, h.get?_coord_idx, h.length_coords]
      by_cases hp : p = quantise xy
      · rw [if_pos hp, if_pos (List.mem_append_right _ (List.mem_singleton.mpr hp)), hp, place_append_self hmem]
      · by_cases hps : p ∈ ps
        · rw [if_neg hp, if_pos hps, if_pos (List.mem_append_left _ hps),
            place_mono (List.prefix_append _ _) hps]
        · have hnot : p ∉ ps ++ [quantise xy] := by
            rw [List.mem_append, List.mem_singleton]
            exact fun h => h.elim hps hp
          rw [if_neg hp, if_neg hps, if_neg hnot]

/-! ## The passes -/

def wireEnds (wire : Wire) : List Point := [quantise wire.1, quantise wire.2]

/-- The representatives after the wires were joined, for numbers that are places in a list. -/
def wireRep (all : List Point) (rep : ℕ → ℕ) (wire : Wire) : ℕ → ℕ :=
  merge rep (place all (quantise wire.1)) (place all (quantise wire.2))

section Passes

variable {g : Graph} {ps all : List Point} {rep : ℕ → ℕ}

theorem unionWire_spec (wire : Wire) (hnum : Numbers g ps) (hrep : g.uf.Represents rep)
    (hall : (wireEnds wire).foldl addNew ps <+: all) :
    Numbers (unionWire g wire) ((wireEnds wire).foldl addNew ps) ∧
      (unionWire g wire).uf.Represents (wireRep all rep wire) := by
  obtain ⟨hsi, hnum₁, huf₁⟩ := getOrAddCoord_spec hnum wire.1
  obtain ⟨hei, hnum₂, huf₂⟩ := getOrAddCoord_spec hnum₁ wire.2
  have hs : (getOrAddCoord wire.1 g).1 = place all (quantise wire.1) := by
    rw [hsi]
    exact (place_mono ((prefix_addNew _ (quantise wire.2)).trans hall) (mem_addNew.mpr (Or.inr rfl))).symm
  have he : (getOrAddCoord wire.2 (getOrAddCoord wire.1 g).2).1 = place all (quantise wire.2) := by
    rw [hei]
    exact (place_mono hall (mem_addNew.mpr (Or.inr rfl))).symm
  refine ⟨hnum₂.with_uf _, ?_⟩
  show ((getOrAddCoord wire.2 (getOrAddCoord wire.1 g).2).2.uf.union (getOrAddCoord wire.1 g).1
    (getOrAddCoord wire.2 (getOrAddCoord wire.1 g).2).1).Represents _
  rw [huf₂, huf₁, hs, he]
  exact (hrep.union _ _).1

theorem unionWires_spec (wires : List Wire) (hnum : Numbers g ps) (hrep : g.uf.Represents rep)
    (hall : (wires.flatMap wireEnds).foldl addNew ps <+: all) :
    Numbers (unionWires wires g) ((wires.flatMap wireEnds).foldl addNew ps) ∧
      (unionWires wires g).uf.Represents (wires.foldl (wireRep all) rep) := by
  induction wires generalizing g ps rep with
  | nil => exact ⟨hnum, hrep⟩
  | cons wire wires ih =>
    rw [List.flatMap_cons, List.foldl_append] at hall ⊢
    obtain ⟨hnum', hrep'⟩ := unionWire_spec wire hnum hrep ((prefix_foldl_addNew _ _).trans hall)
    exact ih hnum' hrep' hall

theorem mergeJunction_spec (junction : Coord) (hnum : Numbers g ps) (hrep : g.uf.Represents rep) :
    Numbers (mergeJunction g junction) (addNew ps (quantise junction)) ∧
      (mergeJunction g junction).uf.Represents rep := by
  have hget := hnum.get?_coord_idx (quantise junction)
  by_cases hmem : quantise junction ∈ ps
  · rw [if_pos hmem] at hget
    rw [mergeJunction, hget, addNew, if_pos hmem]
    have hself := (hrep.union (place ps (quantise junction)) (place ps (quantise junction))).1
    rw [UnionFind.merge_of_eq rfl] at hself
    exact ⟨hnum.with_uf _, hself⟩
  · rw [if_neg hmem] at hget
    rw [mergeJunction, hget]
    obtain ⟨-, hnum', huf⟩ := getOrAddCoord_spec hnum junction
    exact ⟨hnum', huf ▸ hrep⟩

theorem mergeJunctions_spec (junctions : List Coord) (hnum : Numbers g ps) (hrep : g.uf.Represents rep) :
    Numbers (mergeJunctions junctions g) ((junctions.map quantise).foldl addNew ps) ∧
      (mergeJunctions junctions g).uf.Represents rep := by
  induction junctions generalizing g ps with
  | nil => exact ⟨hnum, hrep⟩
  | cons junction junctions ih =>
    obtain ⟨hnum', hrep'⟩ := mergeJunction_spec junction hnum hrep
    exact ih hnum' hrep'

/-- The labels of each representative, in the order of the drawing. -/
theorem groupLabels_spec (labels : List Label) (hnum : Numbers g ps) (hrep : g.uf.Represents rep)
    (hall : (labels.map fun l => quantise l.coord).foldl addNew ps <+: all) :
    Numbers (groupLabels labels g).2 ((labels.map fun l => quantise l.coord).foldl addNew ps) ∧
      (groupLabels labels g).2.uf.Represents rep ∧
      ∀ r, ((groupLabels labels g).1.get? r).getD [] =
        (labels.filter fun l => rep (place all (quantise l.coord)) = r).map fun l => (l.name, l.kind) := by
  have hloop : ∀ (labels : List Label) (ps : List Point) (state : Groups × Graph), Numbers state.2 ps →
      state.2.uf.Represents rep → (labels.map fun l => quantise l.coord).foldl addNew ps <+: all →
      Numbers (labels.foldl groupLabel state).2 ((labels.map fun l => quantise l.coord).foldl addNew ps) ∧
        (labels.foldl groupLabel state).2.uf.Represents rep ∧
        ∀ r, ((labels.foldl groupLabel state).1.get? r).getD [] = (state.1.get? r).getD [] ++
          (labels.filter fun l => rep (place all (quantise l.coord)) = r).map fun l => (l.name, l.kind) := by
    intro labels
    induction labels with
    | nil =>
      intro ps state hnum hrep _
      exact ⟨hnum, hrep, fun r => by simp⟩
    | cons label labels ih =>
      intro ps state hnum hrep hall
      obtain ⟨hli, hnum', huf⟩ := getOrAddCoord_spec hnum label.coord
      have hidx : (getOrAddCoord label.coord state.2).1 = place all (quantise label.coord) := by
        rw [hli]
        have hprefix : addNew ps (quantise label.coord) <+: all := (prefix_foldl_addNew _ _).trans hall
        exact (place_mono hprefix (mem_addNew.mpr (Or.inr rfl))).symm
      have hsame : (getOrAddCoord label.coord state.2).2.uf.Represents rep := huf ▸ hrep
      obtain ⟨hfound, hrep', -⟩ := hsame.find (getOrAddCoord label.coord state.2).1
      obtain ⟨h₁, h₂, h₃⟩ := ih (addNew ps (quantise label.coord)) (groupLabel state label)
        (hnum'.with_uf _) hrep' hall
      refine ⟨h₁, h₂, fun r => ?_⟩
      rw [List.foldl_cons, h₃ r]
      rw [hidx] at hfound
      simp only [groupLabel, hidx, hfound, Dict.get?_set, List.filter_cons]
      by_cases hr : r = rep (place all (quantise label.coord))
      · rw [if_pos hr, hr]
        simp
      · rw [if_neg hr]
        simp [Ne.symm hr]
  obtain ⟨h₁, h₂, h₃⟩ := hloop labels ps (.empty, g) hnum hrep hall
  exact ⟨h₁, h₂, h₃⟩

def pinsOf (symbols : List Symbol) : List (String × String × ℚ × ℚ) :=
  symbols.flatMap fun sym => sym.pins.map (Prod.mk sym.ref)

theorem groupPins_eq (symbols : List Symbol) (coord_idx : Dict Point ℕ) (uf : UnionFind ℕ) :
    groupPins symbols coord_idx uf =
      (pinsOf symbols).foldl (fun state pin => groupPin coord_idx pin.1 state pin.2) (.empty, uf) := by
  rw [pinsOf, List.foldl_flatMap]
  simp only [groupPins, List.foldl_map]

/-- The pins of each representative: those of which the point has a number. -/
theorem groupPins_spec (symbols : List Symbol) {coord_idx : Dict Point ℕ} {uf : UnionFind ℕ}
    (hget : ∀ p, coord_idx.get? p = if p ∈ all then some (place all p) else none) (hrep : uf.Represents rep) (r : ℕ) :
    ((groupPins symbols coord_idx uf).1.get? r).getD [] =
      ((pinsOf symbols).filter fun pin =>
        quantise pin.2.2 ∈ all ∧ rep (place all (quantise pin.2.2)) = r).map fun pin => (pin.1, pin.2.1) := by
  have hloop : ∀ (pins : List (String × String × ℚ × ℚ)) (state : PinGroups × UnionFind ℕ), state.2.Represents rep →
      ((pins.foldl (fun state pin => groupPin coord_idx pin.1 state pin.2) state).1.get? r).getD [] =
        (state.1.get? r).getD [] ++ (pins.filter fun pin =>
          quantise pin.2.2 ∈ all ∧ rep (place all (quantise pin.2.2)) = r).map fun pin => (pin.1, pin.2.1) := by
    intro pins
    induction pins with
    | nil =>
      intro state _
      simp
    | cons pin pins ih =>
      intro state hstate
      have hpin := hget (quantise pin.2.2)
      rw [List.foldl_cons, List.filter_cons]
      by_cases hmem : quantise pin.2.2 ∈ all
      · rw [if_pos hmem] at hpin
        obtain ⟨hfound, hrep', -⟩ := hstate.find (place all (quantise pin.2.2))
        have hstep : groupPin coord_idx pin.1 state pin.2 =
            (state.1.set (rep (place all (quantise pin.2.2)))
              ((state.1.get? (rep (place all (quantise pin.2.2)))).getD [] ++ [(pin.1, pin.2.1)]),
              (state.2.find (place all (quantise pin.2.2))).2) := by
          rw [groupPin, hpin]
          simp only [hfound]
        rw [hstep, ih _ hrep', Dict.get?_set]
        by_cases hr : r = rep (place all (quantise pin.2.2))
        · rw [if_pos hr, hr]
          simp [hmem]
        · rw [if_neg hr]
          simp [Ne.symm hr]
      · rw [if_neg hmem] at hpin
        have hstep : groupPin coord_idx pin.1 state pin.2 = state := by
          rw [groupPin, hpin]
        rw [hstep, ih _ hstate]
        simp [hmem]
  rw [groupPins_eq, hloop _ _ hrep]
  rfl

end Passes

/-! ## Nets -/

def InNet (nets : Dict String (List (String × String))) (name : String) (a : String × String) : Prop :=
  ∃ pins, nets.get? name = some pins ∧ a ∈ pins

/-- **The pins of a net** are those of the groups with its name. -/
theorem inNet_nameNets_iff (runtime : Runtime) (all_roots : List ℕ) (label_groups : Groups) (group_pins : PinGroups)
    (name : String) (a : String × String) :
    InNet (nameNets runtime all_roots label_groups group_pins) name a ↔
      ∃ root ∈ all_roots, netName runtime label_groups root = name ∧ a ∈ (group_pins.get? root).getD [] := by
  have hnets : nameNets runtime all_roots label_groups group_pins = (runtime.setOrder all_roots).foldl
      (fun nets root => nets.set (netName runtime label_groups root)
        ((nets.get? (netName runtime label_groups root)).getD [] ++ (group_pins.get? root).getD [])) .empty := by
    unfold nameNets
    congr
    funext nets root
    dsimp only
    cases nets.get? (netName runtime label_groups root) <;> rfl
  have hloop : ∀ (roots : List ℕ) (nets : Dict String (List (String × String))),
      InNet (roots.foldl (fun nets root => nets.set (netName runtime label_groups root)
        ((nets.get? (netName runtime label_groups root)).getD [] ++ (group_pins.get? root).getD [])) nets) name a ↔
        InNet nets name a ∨
          ∃ root ∈ roots, netName runtime label_groups root = name ∧ a ∈ (group_pins.get? root).getD [] := by
    intro roots
    induction roots with
    | nil => simp
    | cons root roots ih =>
      intro nets
      rw [List.foldl_cons, ih]
      simp only [List.mem_cons, exists_eq_or_imp, ← or_assoc]
      apply or_congr_left
      simp only [InNet, Dict.get?_set]
      by_cases hname : name = netName runtime label_groups root
      · subst hname
        cases nets.get? (netName runtime label_groups root) <;> simp
      · simp [hname, Ne.symm hname]
  rw [hnets, hloop]
  have hmem : ∀ root, root ∈ runtime.setOrder all_roots ↔ root ∈ all_roots := by
    intro root
    rw [(runtime.setOrder_perm all_roots).mem_iff, List.mem_dedup]
  simp only [InNet, Dict.get?_empty, reduceCtorEq, false_and, exists_false, false_or, hmem]

/-! ## Drawings -/

/-- What the connectivity of a schematic is made of. -/
structure Drawing where
  symbols : List Symbol
  wires : List Wire
  junctions : List Coord
  labels : List Label

namespace Drawing

variable (d : Drawing)

/-- The points that the importer looks at: ends of wires, junctions and labels. -/
def points : List Point :=
  d.wires.flatMap wireEnds ++ d.junctions.map quantise ++ d.labels.map fun l => quantise l.coord

def PinAt (a : String × String) (p : Point) : Prop :=
  ∃ sym ∈ d.symbols, ∃ pin ∈ sym.pins, (sym.ref, pin.1) = a ∧ quantise pin.2 = p

def toPlane (p : Point) : ℚ × ℚ := (p.1, p.2)

/-- A point lies on a wire, its ends included. -/
def OnWire (p : Point) (w : Wire) : Prop :=
  toPlane p ∈ segment ℚ (toPlane (quantise w.1)) (toPlane (quantise w.2))

/-- What connects two points: a wire its ends, a junction the wires it lies on, and a name its labels. -/
inductive Link : Point → Point → Prop
  | wire {w : Wire} (hw : w ∈ d.wires) : Link (quantise w.1) (quantise w.2)
  | junction {j : Coord} {w : Wire} (hj : j ∈ d.junctions) (hw : w ∈ d.wires) (hon : OnWire (quantise j) w) :
    Link (quantise j) (quantise w.1)
  | label {l l' : Label} (hl : l ∈ d.labels) (hl' : l' ∈ d.labels) (hname : l.name = l'.name) :
    Link (quantise l.coord) (quantise l'.coord)

/-- The drawing connects two pins. -/
def Connected (a b : String × String) : Prop :=
  ∃ p q, d.PinAt a p ∧ d.PinAt b q ∧ Relation.EqvGen d.Link p q

/-- The nets that the importer makes. -/
def nets (runtime : Runtime) : Dict String (List (String × String)) :=
  resolveConnectivity runtime d.symbols d.wires d.junctions d.labels

end Drawing

/-- Two pins are in the same net when the drawing connects them, and a pin at a point that is looked at is in a
net. -/
structure Resolves (d : Drawing) (nets : Dict String (List (String × String))) : Prop where
  same_net : ∀ a b, a ≠ b → ((∃ name, InNet nets name a ∧ InNet nets name b) ↔ d.Connected a b)
  complete : ∀ a p, d.PinAt a p → p ∈ d.points → ∃ name, InNet nets name a

namespace Drawing

variable (d : Drawing)

/-- Wires lead from one point to the other, end to end. -/
def Wired (p q : Point) : Prop :=
  Relation.EqvGen (fun p q => ∃ w ∈ d.wires, quantise w.1 = p ∧ quantise w.2 = q) p q

open Classical in
/-- The first of the best labels that wires lead to; the empty text when there is none. -/
noncomputable def bestLabel (p : Point) : String :=
  bestName ((d.labels.filter fun l => d.Wired p (quantise l.coord)).map fun l => (l.name, l.kind))

/-- The number of a group of points: points are numbered in the order in which they come, and each wire gives the
number of the group of its first end to the group of its second. -/
def groupNumber (p : Point) : ℕ := d.wires.foldl (wireRep (distinct d.points)) id (place (distinct d.points) p)

/-- The name of the group of a point: that of its best label, or one made from its number. -/
noncomputable def nameAt (runtime : Runtime) (p : Point) : String :=
  if d.bestLabel p = "" then autoName runtime (d.groupNumber p) else d.bestLabel p

/-- Wires join two points, or the best labels of their groups have one name. -/
def Joined (p q : Point) : Prop := d.Wired p q ∨ (d.bestLabel p ≠ "" ∧ d.bestLabel p = d.bestLabel q)

/-- Two groups have one name although neither wires nor labels join them: a name that was made from a number is
also that of another group. -/
def Clash (runtime : Runtime) (p q : Point) : Prop := ¬ d.Joined p q ∧ d.nameAt runtime p = d.nameAt runtime q

/-- What the drawing connects is joined, and only what it connects clashes. -/
structure Plain (runtime : Runtime) : Prop where
  kept : ∀ a b, a ≠ b → d.Connected a b →
    ∃ p ∈ d.points, ∃ q ∈ d.points, d.PinAt a p ∧ d.PinAt b q ∧ (d.Joined p q ∨ d.Clash runtime p q)
  apart : ∀ a b, a ≠ b → ∀ p ∈ d.points, ∀ q ∈ d.points, d.PinAt a p → d.PinAt b q → d.Clash runtime p q →
    d.Connected a b

/-! ## What is joined -/

variable {d}

theorem mem_points_of_wire {w : Wire} (hw : w ∈ d.wires) : quantise w.1 ∈ d.points ∧ quantise w.2 ∈ d.points := by
  have hends : ∀ p ∈ wireEnds w, p ∈ d.points := fun p hp =>
    List.mem_append_left _ (List.mem_append_left _ (List.mem_flatMap.mpr ⟨w, hw, hp⟩))
  exact ⟨hends _ List.mem_cons_self, hends _ (List.mem_cons_of_mem _ List.mem_cons_self)⟩

theorem mem_points_of_label {l : Label} (hl : l ∈ d.labels) : quantise l.coord ∈ d.points :=
  List.mem_append_right _ (List.mem_map_of_mem hl)

variable {p q : Point}

theorem groupNumber_eq_iff (hp : p ∈ d.points) (hq : q ∈ d.points) :
    d.groupNumber p = d.groupNumber q ↔ d.Wired p q := by
  let all := distinct d.points
  have hfold : d.wires.foldl (wireRep all) id =
      (d.wires.map fun w => (place all (quantise w.1), place all (quantise w.2))).foldl
        (fun rep edge => merge rep edge.1 edge.2) id := by
    rw [List.foldl_map]
    rfl
  have hmem : ∀ {r}, r ∈ d.points → r ∈ all := fun hr => mem_distinct.mpr hr
  show d.wires.foldl (wireRep all) id (place all p) = d.wires.foldl (wireRep all) id (place all q) ↔ _
  rw [hfold, UnionFind.foldl_merge_eq_iff]
  constructor
  · intro h
    -- numbers that edges join are one number, or those of points that wires join
    have hpoints : ∀ m n, Relation.EqvGen (fun m n => (m, n) ∈
        d.wires.map fun w => (place all (quantise w.1), place all (quantise w.2))) m n →
        m = n ∨ ∃ p ∈ d.points, ∃ q ∈ d.points, place all p = m ∧ place all q = n ∧ d.Wired p q := by
      intro m n h
      induction h with
      | rel m n h =>
        obtain ⟨w, hw, heq⟩ := List.mem_map.mp h
        obtain ⟨rfl, rfl⟩ := Prod.mk.inj heq
        obtain ⟨h₁, h₂⟩ := mem_points_of_wire hw
        exact Or.inr ⟨_, h₁, _, h₂, rfl, rfl, Relation.EqvGen.rel _ _ ⟨w, hw, rfl, rfl⟩⟩
      | refl => exact Or.inl rfl
      | symm m n _ ih =>
        rcases ih with rfl | ⟨p, hp, q, hq, rfl, rfl, hwired⟩
        · exact Or.inl rfl
        · exact Or.inr ⟨q, hq, p, hp, rfl, rfl, hwired.symm⟩
      | trans m n k _ _ ih ih' =>
        rcases ih with rfl | ⟨p, hp, q, hq, rfl, rfl, hwired⟩
        · exact ih'
        · rcases ih' with rfl | ⟨q', hq', s, hs, heq, rfl, hwired'⟩
          · exact Or.inr ⟨p, hp, q, hq, rfl, rfl, hwired⟩
          · have hqq' : q' = q := (place_inj (hmem hq') (hmem hq)).mp heq
            exact Or.inr ⟨p, hp, s, hs, rfl, rfl, hwired.trans _ _ _ (hqq' ▸ hwired')⟩
    rcases hpoints _ _ h with heq | ⟨p', hp', q', hq', heq, heq', hwired⟩
    · rw [(place_inj (hmem hp) (hmem hq)).mp heq]
      exact Relation.EqvGen.refl _
    · rwa [(place_inj (hmem hp') (hmem hp)).mp heq, (place_inj (hmem hq') (hmem hq)).mp heq'] at hwired
  · intro h
    clear hp hq
    induction h with
    | rel p q h =>
      obtain ⟨w, hw, rfl, rfl⟩ := h
      exact Relation.EqvGen.rel _ _ (List.mem_map.mpr ⟨w, hw, rfl⟩)
    | refl => exact Relation.EqvGen.refl _
    | symm _ _ _ ih => exact ih.symm
    | trans _ _ _ _ _ ih ih' => exact ih.trans _ _ _ ih'

theorem bestLabel_congr (h : d.Wired p q) : d.bestLabel p = d.bestLabel q := by
  unfold bestLabel
  congr 2
  apply List.filter_congr
  intro l _
  rw [decide_eq_decide]
  exact ⟨fun h' => h.symm.trans _ _ _ h', fun h' => h.trans _ _ _ h'⟩

theorem mem_of_bestName {labels : List (String × LabelKind)} (h : bestName labels ≠ "") :
    ∃ label ∈ labels, label.1 = bestName labels := by
  unfold bestName at h ⊢
  split
  · rename_i hnone
    rw [hnone] at h
    exact absurd rfl h
  · rename_i label hlabel
    exact ⟨label, List.argmin_mem hlabel, rfl⟩

theorem exists_label_of_bestLabel {p : Point} (h : d.bestLabel p ≠ "") :
    ∃ l ∈ d.labels, l.name = d.bestLabel p ∧ d.Wired p (quantise l.coord) := by
  classical
  obtain ⟨label, hlabel, hname⟩ := mem_of_bestName h
  obtain ⟨l, hl, rfl⟩ := List.mem_map.mp hlabel
  obtain ⟨hl, hwired⟩ := List.mem_filter.mp hl
  exact ⟨l, hl, hname, of_decide_eq_true hwired⟩

theorem Wired.eqvGen (h : d.Wired p q) : Relation.EqvGen d.Link p q := by
  induction h with
  | rel p q h =>
    obtain ⟨w, hw, rfl, rfl⟩ := h
    exact Relation.EqvGen.rel _ _ (Link.wire hw)
  | refl => exact Relation.EqvGen.refl _
  | symm _ _ _ ih => exact ih.symm
  | trans _ _ _ _ _ ih ih' => exact ih.trans _ _ _ ih'

theorem Joined.eqvGen (h : d.Joined p q) : Relation.EqvGen d.Link p q := by
  rcases h with h | ⟨hne, heq⟩
  · exact h.eqvGen
  · obtain ⟨l, hl, hname, hwired⟩ := exists_label_of_bestLabel hne
    obtain ⟨l', hl', hname', hwired'⟩ := exists_label_of_bestLabel (heq ▸ hne)
    have hlink : d.Link (quantise l.coord) (quantise l'.coord) :=
      Link.label hl hl' (hname.trans (heq.trans hname'.symm))
    exact (hwired.eqvGen.trans _ _ _ (Relation.EqvGen.rel _ _ hlink)).trans _ _ _ hwired'.eqvGen.symm

theorem nameAt_eq_iff {runtime : Runtime} (hp : p ∈ d.points) (hq : q ∈ d.points) :
    d.nameAt runtime p = d.nameAt runtime q ↔ d.Joined p q ∨ d.Clash runtime p q := by
  constructor
  · intro h
    by_cases hjoined : d.Joined p q
    · exact Or.inl hjoined
    · exact Or.inr ⟨hjoined, h⟩
  · rintro ((hwired | ⟨hne, heq⟩) | ⟨-, h⟩)
    · rw [nameAt, nameAt, bestLabel_congr hwired, (groupNumber_eq_iff hp hq).mpr hwired]
    · rw [nameAt, nameAt, if_neg hne, if_neg (heq ▸ hne), heq]
    · exact h

/-! ## The nets of a drawing -/

variable (d)

/-- **The pins of a net**: those at the points that have its name. -/
theorem inNet_iff (runtime : Runtime) (name : String) (a : String × String) :
    InNet (d.nets runtime) name a ↔ ∃ p ∈ d.points, d.PinAt a p ∧ d.nameAt runtime p = name := by
  let all := distinct d.points
  let rep := d.wires.foldl (wireRep all) id
  have hmem : ∀ {p}, p ∈ all ↔ p ∈ d.points := mem_distinct
  have hall : (d.labels.map fun l => quantise l.coord).foldl addNew ((d.junctions.map quantise).foldl addNew
      ((d.wires.flatMap wireEnds).foldl addNew [])) = all := by
    rw [← List.foldl_append, ← List.foldl_append, ← List.append_assoc]
    rfl
  have hprefix : (d.labels.map fun l => quantise l.coord).foldl addNew ((d.junctions.map quantise).foldl addNew
      ((d.wires.flatMap wireEnds).foldl addNew [])) <+: all := by
    rw [hall]
  -- the passes over the drawing
  obtain ⟨hnum₁, hrep₁⟩ := unionWires_spec d.wires numbers_empty UnionFind.represents_empty
    ((prefix_foldl_addNew _ _).trans ((prefix_foldl_addNew _ _).trans hprefix))
  obtain ⟨hnum₂, hrep₂⟩ := mergeJunctions_spec d.junctions hnum₁ hrep₁
  obtain ⟨hnum₃, hrep₃, hlabels⟩ := groupLabels_spec d.labels hnum₂ hrep₂ hprefix
  rw [hall] at hnum₃
  let labelled := groupLabels d.labels (mergeJunctions d.junctions (unionWires d.wires .empty))
  let pinned := groupPins d.symbols labelled.2.coord_idx labelled.2.uf
  have hpins : ∀ r, (pinned.1.get? r).getD [] = _ := groupPins_spec d.symbols hnum₃.get?_coord_idx hrep₃
  have hroot : ∀ p ∈ d.points, netName runtime labelled.1 (rep (place all p)) = d.nameAt runtime p := by
    intro p hp
    have hbest : bestName ((labelled.1.get? (rep (place all p))).getD []) = d.bestLabel p := by
      classical
      rw [hlabels, bestLabel]
      congr 2
      apply List.filter_congr
      intro l hl
      rw [decide_eq_decide, ← groupNumber_eq_iff hp (mem_points_of_label hl)]
      exact eq_comm
    unfold netName nameAt
    rw [hbest]
    rfl
  refine (inNet_nameNets_iff runtime _ labelled.1 pinned.1 name a).trans ?_
  constructor
  · rintro ⟨root, -, hname, ha⟩
    rw [hpins root] at ha
    obtain ⟨⟨ref, pin⟩, hfiltered, rfl⟩ := List.mem_map.mp ha
    obtain ⟨hpin, hat⟩ := List.mem_filter.mp hfiltered
    obtain ⟨hlisted, rfl⟩ := of_decide_eq_true hat
    obtain ⟨sym, hsym, hmap⟩ := List.mem_flatMap.mp hpin
    obtain ⟨pin', hpin', heq⟩ := List.mem_map.mp hmap
    obtain ⟨rfl, rfl⟩ := Prod.mk.inj heq
    have hp := hmem.mp hlisted
    exact ⟨_, hp, ⟨sym, hsym, pin', hpin', rfl, rfl⟩, (hroot _ hp).symm.trans hname⟩
  · rintro ⟨p, hp, ⟨sym, hsym, pin, hpin, rfl, rfl⟩, hname⟩
    have ha : (sym.ref, pin.1) ∈ (pinned.1.get? (rep (place all (quantise pin.2)))).getD [] := by
      rw [hpins]
      refine List.mem_map.mpr ⟨(sym.ref, pin), List.mem_filter.mpr ⟨?_, decide_eq_true ⟨hmem.mpr hp, rfl⟩⟩, rfl⟩
      exact List.mem_flatMap.mpr ⟨sym, hsym, List.mem_map_of_mem hpin⟩
    refine ⟨rep (place all (quantise pin.2)), ?_, (hroot _ hp).trans hname, ha⟩
    -- a representative with a pin is among the roots
    apply List.mem_append_right
    cases hget : pinned.1.get? (rep (place all (quantise pin.2))) with
    | none =>
      rw [hget] at ha
      cases ha
    | some pins => exact Dict.mem_keys_iff.mpr ⟨pins, hget⟩

/-- **The nets resolve the drawing** when what it connects is joined by wires end to end or by the best labels,
and no name that was made from a number is that of another group. -/
theorem resolves_iff (runtime : Runtime) : Resolves d (d.nets runtime) ↔ d.Plain runtime := by
  have hsame : ∀ a b, (∃ name, InNet (d.nets runtime) name a ∧ InNet (d.nets runtime) name b) ↔
      ∃ p ∈ d.points, ∃ q ∈ d.points, d.PinAt a p ∧ d.PinAt b q ∧ (d.Joined p q ∨ d.Clash runtime p q) := by
    intro a b
    simp only [inNet_iff]
    constructor
    · rintro ⟨name, ⟨p, hp, ha, hname⟩, q, hq, hb, hname'⟩
      exact ⟨p, hp, q, hq, ha, hb, (nameAt_eq_iff hp hq).mp (hname.trans hname'.symm)⟩
    · rintro ⟨p, hp, q, hq, ha, hb, h⟩
      exact ⟨_, ⟨p, hp, ha, rfl⟩, q, hq, hb, ((nameAt_eq_iff hp hq).mpr h).symm⟩
  constructor
  · intro h
    refine ⟨fun a b hne hconnected => (hsame a b).mp ((h.same_net a b hne).mpr hconnected), ?_⟩
    intro a b hne p hp q hq ha hb hclash
    exact (h.same_net a b hne).mp ((hsame a b).mpr ⟨p, hp, q, hq, ha, hb, Or.inr hclash⟩)
  · intro h
    refine ⟨fun a b hne => ⟨fun hnet => ?_, fun hconnected => (hsame a b).mpr (h.kept a b hne hconnected)⟩, ?_⟩
    · obtain ⟨p, hp, q, hq, ha, hb, hjoined | hclash⟩ := (hsame a b).mp hnet
      · exact ⟨p, q, ha, hb, hjoined.eqvGen⟩
      · exact h.apart a b hne p hp q hq ha hb hclash
    · intro a p ha hp
      exact ⟨_, (d.inNet_iff runtime _ a).mpr ⟨p, hp, ha, rfl⟩⟩

end Drawing

/-! ## A junction in the middle of a wire -/

def firstDigests : Runtime where
  sha256 text :=
    if text = "0" then "5feceb66ffc86f38d952786c6d696c79c2dbc239dd4e91b46729d73a27fb57e9"
    else if text = "1" then "6b86b273ff34fce19d6b804eff5a3f5747ada4eaa22f1d49c01e52ddb7875b4b"
    else "d4735e3a265e16eee03f59718b9b5d03019c07d8b6c51f90da3a666eec13ab35"
  setOrder := List.dedup
  setOrder_perm _ := List.Perm.refl _

/-- A wire that starts at a junction in the middle of another, and two resistors at the ends. -/
def branch : Drawing where
  symbols :=
    [{ lib_id := "Device:R", ref := "R1", value := "1k", footprint := "", at_ := (0, 0), angle := 0, unit := 1,
       pins := [("1", 0, 0)] },
     { lib_id := "Device:R", ref := "R2", value := "2k", footprint := "", at_ := (5, 5), angle := 0, unit := 1,
       pins := [("1", 5, 5)] }]
  wires := [((0, 0), (10, 0)), ((5, 0), (5, 5))]
  junctions := [(5, 0)]
  labels := []

-- for `decide` below
attribute [local semireducible] Rat.sub Rat.mul Rat.inv

/-- The junction lies on the first wire, and the resistors are in different nets. -/
theorem not_resolves_branch : ¬ Resolves branch (branch.nets firstDigests) := by
  intro h
  have hconnected : branch.Connected ("R1", "1") ("R2", "1") := by
    refine ⟨(0, 0), (500, 500), ?_, ?_, ?_⟩
    · exact ⟨_, List.mem_cons_self, _, List.mem_cons_self, rfl, by decide⟩
    · exact ⟨_, List.mem_cons_of_mem _ List.mem_cons_self, _, List.mem_cons_self, rfl, by decide⟩
    · have hstart : quantise (0, 0) = (0, 0) := by decide
      have hmiddle : quantise (5, 0) = (500, 0) := by decide
      have hend : quantise (5, 5) = (500, 500) := by decide
      have hright : quantise (10, 0) = (1000, 0) := by decide
      have hon : Drawing.OnWire (quantise (5, 0)) ((0, 0), (10, 0)) := by
        rw [Drawing.OnWire, hmiddle, hstart, hright]
        exact ⟨1 / 2, 1 / 2, by norm_num, by norm_num, by norm_num, by
          simp only [Drawing.toPlane, Prod.smul_mk, Prod.mk_add_mk, smul_eq_mul]
          norm_num⟩
      have hjunction : branch.Link (500, 0) (0, 0) := by
        have hlink := @Drawing.Link.junction branch (5, 0) ((0, 0), (10, 0)) List.mem_cons_self List.mem_cons_self hon
        rwa [hmiddle, hstart] at hlink
      have hwire : branch.Link (500, 0) (500, 500) := by
        have hlink := @Drawing.Link.wire branch ((5, 0), (5, 5)) (List.mem_cons_of_mem _ List.mem_cons_self)
        rwa [hmiddle, hend] at hlink
      exact (Relation.EqvGen.rel _ _ hjunction).symm.trans _ _ _ (Relation.EqvGen.rel _ _ hwire)
  obtain ⟨name, ⟨pins, hpins, hfirst⟩, pins', hpins', hsecond⟩ :=
    (h.same_net _ _ (by decide)).mpr hconnected
  obtain rfl := Option.some.inj (hpins.symm.trans hpins')
  have hnone : ∀ item ∈ (branch.nets firstDigests).items, ("R1", "1") ∈ item.2 → ("R2", "1") ∉ item.2 := by
    with_unfolding_all decide
  exact hnone _ (Dict.get?_eq_some_iff.mp hpins) hfirst hsecond

end ZapTrace.SchematicImporter
