import ZapTrace.Export.Drill
import ZapTrace.Library.Turn

/-!
# Where a pad is

The router, the Gerber and drill files, and the KiCad export each compute the centre of a pad from the place
of its component. The router turns the offset of the pad by the rotation of the component, and takes the place
it is called with. The fabrication files take the position of the component, and turn nothing. The KiCad
export takes the position of the component before its placement, and writes footprints without rotation.

## Main results

* `padCentresAgree_iff`: which designs they agree on
-/

namespace ZapTrace.Fabrication

open Option hiding or or_assoc
open Plane List Dict

namespace Gerber

variable {K : Type} [Field K] [LinearOrder K]

/-- A pad with its absolute position. -/
structure PadFlash (K : Type) where
  layer : String
  position : Point K
  size : K × K
  shape : PadShape

def padFlash (layer : String) (position : Point K) (pad : Pad K) : PadFlash K where
  layer := layer
  position := (position.1 + pad.position.1, position.2 + pad.position.2)
  size := pad.size
  shape := pad.shape

end Gerber

namespace PadCentres

/-- How Python reads the names of pads and pins. -/
structure Words where
  /-- `strip` and `lower` -/
  clean : String → String
  isDigits : String → Bool

section Model

variable {K : Type} [Field K] [LinearOrder K] (trig : Trig K) (words : Words)

/-! ## The router -/

def rotatedOffset (offset : Point K) (angle_deg : K) : Point K :=
  let theta := trig.radians (-angle_deg)
  (offset.1 * trig.cos theta - offset.2 * trig.sin theta, offset.1 * trig.sin theta + offset.2 * trig.cos theta)

/-- The third entry of the placement, or the rotation among the properties. -/
def footprintRotation (design : Design K) (component : Component K) : K :=
  let placements := design.placement.getD empty
  match placements.get? component.id <|> placements.get? component.ref with
  | some ⟨_, _, some rotation⟩ => rotation
  | _ => component.rotation.getD 0

/-- What the router knows of the components, by their names. -/
structure RouteContext (K : Type) [Zero K] [LT K] where
  ref_positions : Dict String (Point K) := empty
  component_by_ref : Dict String (Component K) := empty
  rotation_by_ref : Dict String K := empty

/-- The places the router is called with come before the position of the component. -/
def addRefPosition (positions : Dict String (Point K)) (ref_positions : Dict String (Point K))
    (component : Component K) : Dict String (Point K) :=
  match positions.get? component.ref <|> positions.get? component.id with
  | some place => ref_positions.set component.ref place
  | none =>
    match component.position with
    | none => ref_positions
    | some position =>
      if component.ref ∈ ref_positions.keys then ref_positions else ref_positions.set component.ref position

def addComponent (design : Design K) (positions : Dict String (Point K)) (context : RouteContext K)
    (component : Component K) : RouteContext K where
  ref_positions := addRefPosition positions context.ref_positions component
  component_by_ref := context.component_by_ref.set component.ref component
  rotation_by_ref := context.rotation_by_ref.set component.ref (footprintRotation design component)

def prepareRouteContext (design : Design K) (positions : Dict String (Point K)) : RouteContext K :=
  design.components.values.foldl (addComponent design positions) {}

/-- The names that a pin goes by. -/
def pinAliases (pin_name : String) : List String :=
  let raw := words.clean pin_name
  let number := (raw.drop 1).toString
  raw :: ((if raw.startsWith "p" ∧ words.isDigits number then [number] else []) ++
    if words.isDigits raw then ["p" ++ raw] else [])

def padForPin (component : Component K) (pin_name : String) : Option (Pad K) :=
  match component.footprint_def with
  | none => none
  | some footprint =>
    let aliases := pinAliases words pin_name
    let pads := (component.package_pin_map.items.filter fun (_, logical_pin) =>
      words.clean logical_pin ∈ aliases).map fun (pad_id, _) => words.clean pad_id
    footprint.pads.find? fun pad => words.clean pad.id ∈ aliases ++ pads

def routePoint (context : RouteContext K) (node : Models.NetNode) : Option (Point K) :=
  match context.component_by_ref.get? node.component_ref, context.ref_positions.get? node.component_ref,
    context.rotation_by_ref.get? node.component_ref with
  | some component, some component_position, some rotation =>
    (padForPin words component node.pin_name).map fun pad =>
      let d := rotatedOffset trig pad.position rotation
      (component_position.1 + d.1, component_position.2 + d.2)
  | _, _, _ => none

/-! ## The exports -/

def gerberCentre (component : Component K) (pad : Pad K) : Option (Point K) :=
  component.position.map fun position => (Gerber.padFlash "" position pad).position

/-- The place of a component on the board of KiCad. -/
def componentPosition (component : Component K) (placement : Option (Dict String (Placement K))) :
    Option (Placement K) :=
  match component.position, placement with
  | some position, _ => some ⟨position.1, position.2, none⟩
  | none, none => none
  | none, some placement => placement.get? component.id <|> placement.get? component.ref

/-- Where a footprint is. Three numbers do not unpack into two. -/
def footprintAt (design : Design K) (component : Component K) : Option (Point K) :=
  match componentPosition component design.placement with
  | some ⟨x, y, none⟩ => some (x, y)
  | _ => none

def kicadCentre (design : Design K) (component : Component K) (pad : Pad K) : Option (Point K) :=
  (footprintAt design component).map fun place =>
    let d := rotatedOffset trig pad.position 0
    (place.1 + d.1, place.2 + d.2)

/-! ## Agreement -/

/-- A component that has a place in one of the ways a component can have one. -/
def Placed (design : Design K) (positions : Dict String (Point K)) (component : Component K) : Prop :=
  component.position.isSome ∨
    (positions.get? component.ref <|> positions.get? component.id).isSome ∨
    ((design.placement.getD empty).get? component.id <|>
      (design.placement.getD empty).get? component.ref).isSome

/-- A node of a net that the router takes to a pad of a component. -/
structure Reaches (design : Design K) (positions : Dict String (Point K)) (node : Models.NetNode)
    (component : Component K) (pad : Pad K) : Prop where
  in_net : ∃ net ∈ design.nets, node ∈ net.nodes
  component_eq : (prepareRouteContext design positions).component_by_ref.get? node.component_ref = some component
  pad_eq : padForPin words component node.pin_name = some pad

/-- The router and the exports have one centre for a pad. -/
structure AgreeAt (design : Design K) (positions : Dict String (Point K)) (component : Component K)
    (pad : Pad K) (centre : Point K) : Prop where
  route : ∀ node, Reaches words design positions node component pad →
    routePoint trig words (prepareRouteContext design positions) node = some centre
  gerber : gerberCentre component pad = some centre
  hole : ∀ drill, pad.drill = some drill → 0 < drill →
    (component.position.bind fun position => Drill.padDrillHole position pad).map Drill.DrillHole.place = some centre
  slot : ∀ position slot, component.position = some position →
    Drill.padDrillSlot trig position component.ref pad = .ok (some slot) →
    ((slot.start.1 + slot.stop.1) / 2, (slot.start.2 + slot.stop.2) / 2) = centre
  kicad : kicadCentre trig design component pad = some centre

/-- For every pad of a placed component the router and the exports have one centre. -/
def PadCentresAgree (design : Design K) (positions : Dict String (Point K)) : Prop :=
  ∀ component ∈ design.components.values, Placed design positions component →
    ∀ footprint, component.footprint_def = some footprint → ∀ pad ∈ footprint.pads,
      ∃ centre, AgreeAt trig words design positions component pad centre

/-! ## The place that the router has for a name -/

/-- Of the components with a name, and the places the router is called with: the place by the name, by
the identifier of the last one that has one, or the position of the first one that has one. -/
def routedPosition (positions : Dict String (Point K)) (components : List (Component K)) (ref : String) :
    Option (Point K) :=
  let named := components.filter fun component => component.ref = ref
  (named.head?.bind fun _ => positions.get? ref) <|>
    named.reverse.findSome? (fun component => positions.get? component.id) <|>
    named.findSome? fun component => component.position

theorem get?_addRefPosition (positions ref_positions : Dict String (Point K)) (component : Component K)
    (ref : String) :
    (addRefPosition positions ref_positions component).get? ref =
      if component.ref = ref then
        (positions.get? component.ref <|> positions.get? component.id) <|>
          ref_positions.get? ref <|> component.position
      else ref_positions.get? ref := by
  unfold addRefPosition
  cases hplace : positions.get? component.ref <|> positions.get? component.id with
  | some place =>
    dsimp only
    rw [get?_set]
    by_cases href : component.ref = ref
    · rw [if_pos href, if_pos href.symm]
      rfl
    · rw [if_neg href, if_neg (Ne.symm href)]
  | none =>
    dsimp only
    by_cases href : component.ref = ref
    · subst href
      rw [if_pos rfl]
      cases hposition : component.position with
      | none => cases ref_positions.get? component.ref <;> rfl
      | some position =>
        dsimp only
        split
        · rename_i hmem
          obtain ⟨place, hplace⟩ := mem_keys_iff.mp hmem
          rw [hplace]
          rfl
        · rename_i hmem
          rw [not_mem_keys_iff.mp hmem, get?_set_self]
          rfl
    · rw [if_neg href]
      cases component.position with
      | none => rfl
      | some position =>
        dsimp only
        split
        · rfl
        · exact get?_set_of_ne _ _ (Ne.symm href)

/-- What the router has for a name, as the components with the name give it. -/
theorem get?_addComponents (design : Design K) (positions : Dict String (Point K))
    (components : List (Component K)) (ref : String) :
    let context := components.foldl (addComponent design positions) {}
    let named := components.filter fun component => component.ref = ref
    context.component_by_ref.get? ref = named.getLast? ∧
      context.rotation_by_ref.get? ref = named.getLast?.map (footprintRotation design) ∧
      context.ref_positions.get? ref = routedPosition positions components ref := by
  -- the last component that was added decides
  induction components using reverseRecOn with
  | nil => exact ⟨rfl, rfl, rfl⟩
  | append_singleton components component ih =>
    obtain ⟨hcomponent, hrotation, hposition⟩ := ih
    dsimp only
    rw [foldl_concat, filter_append]
    generalize components.foldl (addComponent design positions) {} = context at *
    unfold addComponent
    dsimp only
    rw [get?_set, get?_set, get?_addRefPosition]
    by_cases href : component.ref = ref
    · subst href
      have hnamed : [component].filter (fun other => other.ref = component.ref) = [component] := by simp
      refine ⟨?_, ?_, ?_⟩
      · rw [if_pos rfl, hnamed, getLast?_concat]
      · rw [if_pos rfl, hnamed, getLast?_concat]
        rfl
      · rw [if_pos rfl, hposition]
        unfold routedPosition
        rw [filter_append, hnamed]
        dsimp only
        rw [reverse_append, findSome?_append, findSome?_append, head?_append]
        generalize (components.filter fun other => other.ref = component.ref) = named
        cases positions.get? component.ref with
        | some place => cases named.head? <;> rfl
        | none =>
          cases hid : positions.get? component.id with
          | some place => cases named.head? <;> simp [hid]
          | none => cases named.head? <;> simp [hid, Option.or_assoc]
    · have hnamed : [component].filter (fun other => other.ref = ref) = [] := by simp [href]
      rw [if_neg (Ne.symm href), if_neg (Ne.symm href), if_neg href, hnamed, append_nil]
      refine ⟨hcomponent, hrotation, ?_⟩
      rw [hposition]
      unfold routedPosition
      rw [filter_append, hnamed, append_nil]

end Model

/-! ## Which designs they agree on -/

noncomputable section Real

/-- The functions of `math`, exact. -/
def trigReal : Trig ℝ := ⟨fun degrees => degrees * Real.pi / 180, Real.cos, Real.sin⟩

theorem rotatedOffset_real (offset : Point ℝ) (angle_deg : ℝ) :
    rotatedOffset trigReal offset angle_deg = Turn.turned (-angle_deg * Real.pi / 180) offset := rfl

theorem rotatedOffset_zero (offset : Point ℝ) : rotatedOffset trigReal offset 0 = offset := by
  rw [rotatedOffset_real]
  exact Turn.turned_eq_self_iff.mpr (.inr ⟨0, by simp⟩)

theorem rotatedOffset_eq_self_iff {offset : Point ℝ} {angle_deg : ℝ} :
    rotatedOffset trigReal offset angle_deg = offset ↔ offset = (0, 0) ∨ ∃ n : ℤ, angle_deg = n * 360 := by
  rw [rotatedOffset_real, Turn.turned_eq_self_iff]
  apply or_congr Iff.rfl
  have hpi := Real.pi_pos.ne'
  constructor
  · rintro ⟨n, hn⟩
    refine ⟨-n, ?_⟩
    apply mul_right_cancel₀ hpi
    push_cast
    linear_combination 180 * hn
  · rintro ⟨n, rfl⟩
    refine ⟨-n, ?_⟩
    push_cast
    ring

/-- The router's place for a component puts a pad where the position of the component puts it: the places
are one and the rotation keeps the offset, or they differ by what the rotation moves the offset. -/
def SamePlace (position place : Point ℝ) (angle_deg : ℝ) (offset : Point ℝ) : Prop :=
  place = position ∧ (offset = (0, 0) ∨ ∃ n : ℤ, angle_deg = n * 360) ∨
    place ≠ position ∧ place - position = offset - rotatedOffset trigReal offset angle_deg

theorem samePlace_iff {position place offset : Point ℝ} {angle_deg : ℝ} :
    SamePlace position place angle_deg offset ↔
      place + rotatedOffset trigReal offset angle_deg = position + offset := by
  unfold SamePlace
  rw [← rotatedOffset_eq_self_iff]
  by_cases hplace : place = position
  · subst hplace
    simp
  · simp only [hplace, false_and, false_or, not_false_eq_true, true_and, ne_eq]
    constructor
    · intro h
      have hsum := congrArg (fun v => v + position + rotatedOffset trigReal offset angle_deg) h
      simpa [sub_add, add_comm, add_left_comm] using hsum
    · intro h
      rw [sub_eq_sub_iff_add_eq_add, h, add_comm]

variable (words : Words) (design : Design ℝ) (positions : Dict String (Point ℝ))

theorem routePoint_eq {node : Models.NetNode} {component : Component ℝ} {pad : Pad ℝ}
    (h : Reaches words design positions node component pad) :
    routePoint trigReal words (prepareRouteContext design positions) node =
      (routedPosition positions design.components.values component.ref).map fun place =>
        place + rotatedOffset trigReal pad.position (footprintRotation design component) := by
  obtain ⟨hcomponent, hrotation, hposition⟩ :=
    get?_addComponents design positions design.components.values node.component_ref
  have hnamed := h.component_eq
  rw [prepareRouteContext, hcomponent] at hnamed
  have href : component.ref = node.component_ref :=
    of_decide_eq_true (mem_filter.mp (mem_of_getLast? hnamed)).2
  unfold routePoint prepareRouteContext
  rw [hcomponent, hrotation, hposition, hnamed, href]
  cases routedPosition positions design.components.values node.component_ref with
  | none => rfl
  | some place =>
    dsimp only [map_some]
    rw [h.pad_eq]
    rfl

theorem isSome_routedPosition {component : Component ℝ} {position : Point ℝ}
    (hmem : component ∈ design.components.values) (hposition : component.position = some position) :
    (routedPosition positions design.components.values component.ref).isSome := by
  unfold routedPosition
  dsimp only
  simp only [orElse_eq_orElse, orElse_eq_or, isSome_or, Bool.or_eq_true]
  right
  right
  rw [findSome?_isSome_iff]
  refine ⟨component, mem_filter.mpr ⟨hmem, by simp⟩, ?_⟩
  rw [hposition]
  rfl

/-- The router and the exports agree just when every placed component has a position, and the router puts the
pads of nets where the position puts them. -/
theorem padCentresAgree_iff :
    PadCentresAgree trigReal words design positions ↔
      ∀ component ∈ design.components.values, Placed design positions component →
        ∀ footprint, component.footprint_def = some footprint → ∀ pad ∈ footprint.pads,
          ∃ position, component.position = some position ∧
            ∀ node, Reaches words design positions node component pad →
              ∀ place, routedPosition positions design.components.values component.ref = some place →
                SamePlace position place (footprintRotation design component) pad.position := by
  apply forall₂_congr
  intro component hmem
  apply imp_congr_right
  intro _
  apply forall₂_congr
  intro footprint _
  apply forall₂_congr
  intro pad _
  constructor
  · rintro ⟨centre, h⟩
    have hgerber := h.gerber
    unfold gerberCentre at hgerber
    obtain ⟨position, hposition, hcentre⟩ := map_eq_some_iff.mp hgerber
    refine ⟨position, hposition, fun node hnode place hplace => ?_⟩
    have hroute := h.route node hnode
    rw [routePoint_eq words design positions hnode, hplace] at hroute
    exact samePlace_iff.mpr ((some.inj hroute).trans hcentre.symm)
  · rintro ⟨position, hposition, h⟩
    refine ⟨position + pad.position, ?_, ?_, ?_, ?_, ?_⟩
    · intro node hnode
      obtain ⟨place, hplace⟩ :=
        isSome_iff_exists.mp (isSome_routedPosition design positions hmem hposition)
      rw [routePoint_eq words design positions hnode, hplace]
      exact congrArg some (samePlace_iff.mp (h node hnode place hplace))
    · rw [gerberCentre, hposition]
      rfl
    · intro drill hdrill hpos
      rw [hposition, bind_some, Drill.padDrillHole, hdrill]
      dsimp only
      rw [if_neg hpos.not_ge]
      rfl
    · intro position' slot hposition' hslot
      rw [hposition] at hposition'
      cases hposition'
      unfold Drill.padDrillSlot at hslot
      split at hslot
      · cases hslot
      · split at hslot
        · cases hslot
        · cases hslot
          ext
          · dsimp only [Prod.fst_add]
            ring
          · dsimp only [Prod.snd_add]
            ring
    · unfold kicadCentre footprintAt componentPosition
      rw [hposition]
      dsimp only [map_some]
      rw [rotatedOffset_zero]
      rfl

/-! A resistor at the origin, turned by a quarter, with a pad on its right. -/

def plainWords : Words := ⟨id, fun word => word.all Char.isDigit⟩

def turnedPad : Pad ℝ := { id := "1", position := (1, 0), size := (1, 1) }

def turnedPart : Component ℝ where
  id := "R1"
  ref := "R1"
  footprint_def := some ⟨[turnedPad]⟩
  rotation := some 90
  position := some (0, 0)

def turnedDesign : Design ℝ where
  components := empty.set "R1" turnedPart
  nets := [⟨"N", [⟨"R1", "1"⟩]⟩]

theorem reaches_turnedPad : Reaches plainWords turnedDesign empty ⟨"R1", "1"⟩ turnedPart turnedPad where
  in_net := ⟨_, .head _, .head _⟩
  component_eq := rfl
  pad_eq := rfl

theorem not_padCentresAgree_turnedDesign :
    ¬ PadCentresAgree trigReal plainWords turnedDesign empty := by
  intro h
  obtain ⟨centre, hcentre⟩ := h turnedPart (.head _) (.inl rfl) _ rfl turnedPad (.head _)
  -- the file has the pad on the right of the resistor, the router has it above
  have hgerber : (1 : ℝ) = centre.1 := by
    have hgerber := congrArg Prod.fst (some.inj hcentre.gerber)
    rw [← hgerber]
    exact (zero_add _).symm
  have hroute : (0 : ℝ) = centre.1 := by
    have hroute := hcentre.route _ reaches_turnedPad
    rw [routePoint_eq plainWords turnedDesign empty reaches_turnedPad] at hroute
    have hfirst := congrArg Prod.fst (some.inj hroute)
    rw [← hfirst]
    show (0 : ℝ) = 0 + (1 * Real.cos (-90 * Real.pi / 180) - 0 * Real.sin (-90 * Real.pi / 180))
    rw [show -90 * Real.pi / 180 = -(Real.pi / 2) by ring, Real.cos_neg, Real.cos_pi_div_two]
    ring
  exact zero_ne_one (hroute.trans hgerber.symm)

end Real

end PadCentres

end ZapTrace.Fabrication
