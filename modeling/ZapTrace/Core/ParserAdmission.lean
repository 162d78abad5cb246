import Mathlib.Data.Rat.Defs
import ZapTrace.Core.Parser
import ZapTrace.Library.Raising

/-!
# The mappings that become a design

What each section of a loaded mapping has to be like so that its parser raises nothing. The predicates speak of
the mapping: of the shapes of its values, of the numbers and texts among them, and of the validators of the
models. Entries of a shape that a section parser skips are not restricted.

## Main results

* `buildDesign_eq_ok_iff`: a design that is built, section by section
* `exists_buildDesign_iff`: a mapping becomes a design when it is admissible
-/

namespace ZapTrace.Schema

open PyValue (lookup)
open Lists (gather exists_mapM_iff exists_gather_iff)
open Raising (error_or_ok bind_eq_ok_iff exists_bind_iff exists_map_iff pure_eq_ok_iff)

/-! ## Statements that raise nothing -/

section

variable {α : Type}

@[simp] theorem orRaise_eq_ok_iff {e : PyException} {o : Option α} {a : α} :
    orRaise e o = .ok a ↔ o = some a := by
  cases o <;> simp [orRaise]
variable {v : PyValue}

@[simp] theorem iterate_eq_ok_iff {xs : List PyValue} :
    iterate v = .ok xs ↔ v.elements = some xs := orRaise_eq_ok_iff

@[simp] theorem items?_eq_some_iff {items : Raw} : v.items? = some items ↔ v = .dict items := by
  cases v <;> simp [PyValue.items?]

@[simp] theorem itemsOf_eq_ok_iff {items : Raw} : itemsOf v = .ok items ↔ v = .dict items :=
  orRaise_eq_ok_iff.trans items?_eq_some_iff

/-- All keys are texts. -/
def Keywords (items : Raw) : Prop := ∀ item ∈ items, isText item.1

@[simp] theorem keywords_eq_ok_iff {items : Raw} {u : Unit} : keywords items = .ok u ↔ Keywords items := by
  unfold keywords Keywords
  rw [← List.all_eq_true]
  split
  · exact iff_of_true rfl ‹_›
  · exact iff_of_false nofun ‹_›

/-- A value that a model takes. -/
def Validates (c : Codec α) (v : PyValue) : Prop := ∃ a, c.validate v = some a

/-- A mapping whose items are the keyword arguments of a model. -/
def Constructs (c : Codec α) (v : PyValue) : Prop := ∃ items, v = .dict items ∧ Keywords items ∧ Validates c v

theorem exists_construct_iff {c : Codec α} : (∃ a, construct c v = .ok a) ↔ Constructs c v := by
  simp [construct, exists_bind_iff, Constructs, Validates]

theorem exists_optional_iff {parse : α → Except PyException β} {o : Option α} :
    (∃ b, optional parse o = .ok b) ↔ ∀ a, o = some a → ∃ b, parse a = .ok b := by
  cases o with
  | none => exact iff_of_true ⟨none, rfl⟩ nofun
  | some a =>
    show (∃ b, (parse a >>= fun b => pure (some b)) = .ok b) ↔ _
    rw [exists_bind_iff]
    simp

end

variable (rt : Runtime)

def ReadAsText (v : PyValue) : Prop := ∃ s, rt.pydantic.toStr v = some s

def Number (v : PyValue) : Prop := ∃ q, rt.float v = .ok q

def Whole (v : PyValue) : Prop := ∃ i, rt.int v = .ok i

theorem exists_textKeys_iff {α : Type} {items : List (PyValue × α)} :
    (∃ d, textKeys rt items = .ok d) ↔ ∀ item ∈ items, ReadAsText rt item.1 := by
  unfold textKeys
  simp only [exists_bind_iff, pure_eq_ok_iff, exists_eq', and_true, exists_mapM_iff, orRaise_eq_ok_iff]
  rfl

/-! ## Components -/

/-- The fields of a pin: a mapping, or the type alone. -/
def pinFields : PyValue → Option Raw
  | .str type => some [(.str "type", .str type)]
  | pin_data => pin_data.items?

def PinAdmissible (item : PyValue × PyValue) : Prop :=
  ∃ fields, pinFields item.2 = some fields ∧
    Validates (Pin.codec rt.pydantic) (.dict ((.str "name", item.1) :: fields))
variable {item : PyValue × PyValue}

theorem exists_parsePin_iff : (∃ pin, parsePin rt item = .ok pin) ↔ PinAdmissible rt item := by
  obtain ⟨name, pin_data⟩ := item
  simp only [parsePin, exists_bind_iff, orRaise_eq_ok_iff, pure_eq_ok_iff, exists_eq', and_true, PinAdmissible,
    Validates]
  cases pin_data <;> rfl

/-- Inline geometry is the same as that of the registered footprint. -/
def InlineAdmissible (filtered_comp : Raw) (resolved : FootprintDef) : Prop :=
  ∀ inline, lookup "footprint_def" filtered_comp = some inline → inline ≠ .none →
    ∃ candidate, (FootprintDef.codec rt.pydantic).validate inline = some candidate ∧
      rt.same_footprint candidate resolved
variable {filtered_comp : Raw}

theorem exists_checkedFootprint_iff {resolved : FootprintDef} :
    (∃ footprint, checkedFootprint rt filtered_comp resolved = .ok footprint) ↔
      InlineAdmissible rt filtered_comp resolved := by
  unfold checkedFootprint InlineAdmissible
  cases hinline : lookup "footprint_def" filtered_comp with
  | none => simp
  | some inline =>
    by_cases hnone : inline = .none
    · simp [hnone]
    · simp only [Option.some.injEq, forall_eq', ne_eq, hnone, not_false_eq_true, forall_const]
      rw [exists_bind_iff]
      refine exists_congr fun candidate => ?_
      rw [orRaise_eq_ok_iff]
      split <;> simp_all

/-- A footprint that is named is registered, and inline geometry is the same. -/
def FootprintAdmissible (filtered_comp : Raw) : Prop :=
  ∀ asset, lookup "footprint_asset" filtered_comp = some asset → asset ≠ .none →
    ∃ asset_id resolved, asset = .str asset_id ∧ rt.resolve_verified_footprint asset_id = .ok resolved ∧
      InlineAdmissible rt filtered_comp resolved

theorem exists_resolvedFootprint_iff :
    (∃ resolved, resolvedFootprint rt filtered_comp = .ok resolved) ↔ FootprintAdmissible rt filtered_comp := by
  unfold resolvedFootprint FootprintAdmissible
  cases hasset : lookup "footprint_asset" filtered_comp with
  | none => simp
  | some asset =>
    cases asset with
    | none => simp
    | str asset_id =>
      rw [exists_bind_iff]
      simp only [exists_bind_iff, pure_eq_ok_iff, exists_eq', and_true, exists_checkedFootprint_iff]
      simp
    | _ => simp

/-- The arguments of a component that are read from the mapping: a footprint that is named comes from the
register. -/
def readFields (filtered_comp : Raw) : Raw :=
  if (lookup "footprint_asset" filtered_comp).any isText then without ["footprint_def"] filtered_comp
  else filtered_comp

theorem isSome_resolvedFootprint {resolved : Option FootprintDef}
    (h : resolvedFootprint rt filtered_comp = .ok resolved) :
    resolved.isSome = (lookup "footprint_asset" filtered_comp).any isText := by
  unfold resolvedFootprint at h
  cases hasset : lookup "footprint_asset" filtered_comp with
  | none =>
    rw [hasset] at h
    cases h
    rfl
  | some asset =>
    rw [hasset] at h
    cases asset with
    | none =>
      cases h
      rfl
    | str asset_id =>
      obtain ⟨geometry, -, h⟩ := bind_eq_ok_iff.mp h
      obtain ⟨footprint, -, h⟩ := bind_eq_ok_iff.mp h
      cases h
      rfl
    | _ => cases h

def ComponentAdmissible (item : PyValue × PyValue) : Prop :=
  ∃ comp_data pins, item.2 = .dict comp_data ∧ orEmpty (lookup "pins" comp_data) = .dict pins ∧
    (∀ pin ∈ pins, PinAdmissible rt pin ∧ ReadAsText rt pin.1) ∧
    FootprintAdmissible rt (without ["pins", "id"] comp_data) ∧ Keywords (without ["pins", "id"] comp_data) ∧
    ∃ component, (Component.fields rt.pydantic (rt.pydantic.dict (Pin.codec rt.pydantic))
      (FootprintDef.codec rt.pydantic)).read (fun n => if n = "id" then some item.1 else
        lookup n (readFields (without ["pins", "id"] comp_data))) = some component

theorem parsePin_fst {pin : PyValue × Pin} (h : parsePin rt item = .ok pin) : pin.1 = item.1 := by
  unfold parsePin at h
  obtain ⟨fields, -, h⟩ := bind_eq_ok_iff.mp h
  obtain ⟨p, -, h⟩ := bind_eq_ok_iff.mp h
  cases h
  rfl

theorem forall_fst_of_mapM {α : Type} {f : PyValue × PyValue → Except PyException (PyValue × α)}
    (hf : ∀ item a, f item = .ok a → a.1 = item.1) {items : Raw} {as : List (PyValue × α)}
    (h : items.mapM f = .ok as) (P : PyValue → Prop) : (∀ a ∈ as, P a.1) ↔ ∀ item ∈ items, P item.1 := by
  induction Lists.mapM_eq_ok_iff.mp h with
  | nil => exact iff_of_true nofun nofun
  | cons hitem hrest ih =>
    rw [List.forall_mem_cons, List.forall_mem_cons, hf _ _ hitem, ih (Lists.mapM_eq_ok_iff.mpr hrest)]

theorem exists_parseComponent_iff :
    (∃ component, parseComponent rt item = .ok component) ↔ ComponentAdmissible rt item := by
  unfold parseComponent ComponentAdmissible
  simp only [exists_bind_iff, itemsOf_eq_ok_iff, orRaise_eq_ok_iff, pure_eq_ok_iff, exists_eq', and_true,
    keywords_eq_ok_iff, exists_textKeys_iff]
  constructor
  · rintro ⟨comp_data, hcomp, pins, hpins, parsed, hparsed, resolved, hresolved, -, hkeywords, component,
      hread, htexts⟩
    refine ⟨comp_data, pins, hcomp, hpins, fun pin hpin => ⟨?_, ?_⟩,
      (exists_resolvedFootprint_iff rt).mp ⟨resolved, hresolved⟩, hkeywords, component, ?_⟩
    · exact (exists_parsePin_iff rt).mp (exists_mapM_iff.mp ⟨parsed, hparsed⟩ pin hpin)
    · exact (forall_fst_of_mapM (fun _ _ => parsePin_fst rt) hparsed (ReadAsText rt)).mp htexts pin hpin
    · rw [isSome_resolvedFootprint rt hresolved] at hread
      exact hread
  · rintro ⟨comp_data, pins, hcomp, hpins, hall, hfootprint, hkeywords, component, hread⟩
    obtain ⟨parsed, hparsed⟩ := exists_mapM_iff.mpr fun pin hpin =>
      (exists_parsePin_iff rt).mpr (hall pin hpin).1
    obtain ⟨resolved, hresolved⟩ := (exists_resolvedFootprint_iff rt).mpr hfootprint
    refine ⟨comp_data, hcomp, pins, hpins, parsed, hparsed, resolved, hresolved, (), hkeywords, component, ?_, ?_⟩
    · rw [isSome_resolvedFootprint rt hresolved]
      exact hread
    · exact (forall_fst_of_mapM (fun _ _ => parsePin_fst rt) hparsed (ReadAsText rt)).mpr fun pin hpin =>
        (hall pin hpin).2

/-! ## Nets -/

/-- A mapping among the nodes of a net has the fields of a node. -/
def NodeAdmissible (node : PyValue) : Prop :=
  ∀ items, node = .dict items → Constructs (NetNode.codec rt.pydantic) node

theorem exists_parseNode_iff {node : PyValue} : (∃ n, parseNode rt node = .ok n) ↔ NodeAdmissible rt node := by
  unfold parseNode NodeAdmissible
  cases node with
  | str s =>
    refine iff_of_true ?_ nofun
    by_cases hdot : '.' ∈ s.toList
    · exact ⟨some (splitNode s), by simp [hdot]⟩
    · exact ⟨none, by simp [hdot]⟩
  | dict items =>
    rw [exists_bind_iff, ← exists_construct_iff]
    simp
  | _ => exact iff_of_true ⟨none, rfl⟩ nofun

def NetAdmissible (item : PyValue × PyValue) : Prop :=
  ∃ net_data nodes, item.2 = .dict net_data ∧
    ((lookup "nodes" net_data).getD (.list [])).elements = some nodes ∧ (∀ node ∈ nodes, NodeAdmissible rt node) ∧
    Keywords (without ["nodes", "id"] net_data) ∧
    ∃ net, (Net.fields rt.pydantic (NetNode.codec rt.pydantic).list).read (fun n =>
      if n = "id" then some item.1 else lookup n (without ["nodes", "id"] net_data)) = some net

theorem exists_parseNet_iff : (∃ net, parseNet rt item = .ok net) ↔ NetAdmissible rt item := by
  unfold parseNet NetAdmissible
  simp only [exists_bind_iff, itemsOf_eq_ok_iff, iterate_eq_ok_iff, orRaise_eq_ok_iff, pure_eq_ok_iff, exists_eq',
    and_true, keywords_eq_ok_iff, exists_and_right, exists_gather_iff, exists_parseNode_iff, exists_and_left,
    exists_const]

/-! ## Placement, net classes and pours -/

/-- The coordinates of a place: two elements, or the two coordinates of a mapping. -/
def coordinates : PyValue → Option (PyValue × PyValue)
  | .list [x, y] => some (x, y)
  | .tuple [x, y] => some (x, y)
  | .dict pos => do return (← lookup "x" pos, ← lookup "y" pos)
  | _ => none

/-- A place with coordinates has numbers, and belongs to a text. -/
def PositionAdmissible (item : PyValue × PyValue) : Prop :=
  ∀ x y, coordinates item.2 = some (x, y) → Number rt x ∧ Number rt y

theorem parsePosition_eq (item : PyValue × PyValue) :
    parsePosition rt item = match coordinates item.2 with
      | some (x, y) => do return some (item.1, ← rt.float x, ← rt.float y)
      | none => return none := by
  unfold parsePosition
  split
  · rename_i h
    rw [h]
    rfl
  · rename_i h
    rw [h]
    rfl
  · rename_i pos h
    rw [h]
    cases hx : lookup "x" pos <;> cases hy : lookup "y" pos <;> simp [coordinates, hx, hy]
  · rename_i hlist htuple hdict
    have hnone : coordinates item.2 = none := by
      unfold coordinates
      split
      · rename_i h
        exact absurd h (hlist _ _)
      · rename_i h
        exact absurd h (htuple _ _)
      · rename_i h
        exact absurd h (hdict _)
      · rfl
    rw [hnone]

theorem exists_parsePosition_iff : (∃ place, parsePosition rt item = .ok place) ↔ PositionAdmissible rt item := by
  rw [parsePosition_eq]
  unfold PositionAdmissible Number
  cases coordinates item.2 with
  | none => simp
  | some xy =>
    obtain ⟨x, y⟩ := xy
    simp [exists_bind_iff]

/-- A text among the classes is the name of a class. -/
def ClassAdmissible (item : PyValue × PyValue) : Prop :=
  isText item.2 → Validates NetClass.codec item.2

theorem exists_parseNetClass_iff : (∃ cls, parseNetClass item = .ok cls) ↔ ClassAdmissible item := by
  obtain ⟨net_id, nc⟩ := item
  unfold parseNetClass ClassAdmissible Validates
  cases nc <;> simp [isText]

theorem exists_parseCopperPour_iff :
    (∃ pour, parseCopperPour rt item = .ok pour) ↔ Validates (CopperPourArea.codec rt.pydantic) item.2 := by
  simp only [parseCopperPour, exists_bind_iff, orRaise_eq_ok_iff, pure_eq_ok_iff, exists_eq', and_true, Validates]

/-! ## The board and its routing -/

/-- The coordinates of a point with at least two elements are numbers. -/
def PointAdmissible (pt : PyValue) : Prop :=
  ∀ x y rest, pt.sequence? = some (x :: y :: rest) → Number rt x ∧ Number rt y

theorem exists_parsePoint_iff {pt : PyValue} : (∃ point, parsePoint rt pt = .ok point) ↔ PointAdmissible rt pt := by
  unfold parsePoint PointAdmissible Number
  cases pt.sequence? with
  | none => simp
  | some xs =>
    match xs with
    | [] => simp
    | [x] => simp
    | x :: y :: rest => simp [exists_bind_iff]

/-- A polygon can be visited, and its points are admissible. -/
def PolygonAdmissible (polygon : PyValue) : Prop :=
  ∃ points, polygon.elements = some points ∧ ∀ pt ∈ points, PointAdmissible rt pt

theorem exists_parsePolygon_iff {polygon : PyValue} :
    (∃ points, parsePolygon rt polygon = .ok points) ↔ PolygonAdmissible rt polygon := by
  simp [parsePolygon, exists_bind_iff, exists_gather_iff, exists_parsePoint_iff, PolygonAdmissible]

/-- A list of values that a condition holds of. -/
def Elements (P : PyValue → Prop) (v : PyValue) : Prop := ∃ xs, v.elements = some xs ∧ ∀ x ∈ xs, P x

def BoardAdmissible (bd : PyValue) : Prop :=
  ∃ items, bd = .dict items ∧
    Elements (Constructs (LayerSpec.codec rt.pydantic)) ((lookup "layer_stack" items).getD (.list [])) ∧
    PolygonAdmissible rt ((lookup "outline" items).getD (.list [])) ∧
    Elements (PolygonAdmissible rt) ((lookup "cutouts" items).getD (.list [])) ∧
    Elements (Constructs (MountingHole.codec rt.pydantic)) ((lookup "mounting_holes" items).getD (.list [])) ∧
    Number rt ((lookup "width" items).getD (.float 100)) ∧ Number rt ((lookup "height" items).getD (.float 80)) ∧
    Whole rt ((lookup "layers" items).getD (.int 2)) ∧
    Validates (BoardConstraints.codec rt.pydantic) (orEmpty (lookup "constraints" items))

theorem exists_parseBoardDefinition_iff {bd : PyValue} :
    (∃ board, parseBoardDefinition rt bd = .ok board) ↔ BoardAdmissible rt bd := by
  unfold parseBoardDefinition BoardAdmissible Elements Number Whole Validates
  simp only [exists_bind_iff, itemsOf_eq_ok_iff, iterate_eq_ok_iff, orRaise_eq_ok_iff, pure_eq_ok_iff, exists_eq',
    and_true, exists_and_right, exists_mapM_iff, exists_construct_iff, exists_parsePolygon_iff]
  simp only [← and_assoc, exists_and_right]

/-- A via with at least four elements has four numbers. -/
def ViaAdmissible (v : PyValue) : Prop :=
  ∀ x y diameter hole rest, v.sequence? = some (x :: y :: diameter :: hole :: rest) →
    Number rt x ∧ Number rt y ∧ Number rt diameter ∧ Number rt hole

theorem exists_parseVia_iff {v : PyValue} : (∃ via, parseVia rt v = .ok via) ↔ ViaAdmissible rt v := by
  unfold parseVia ViaAdmissible Number
  cases v.sequence? with
  | none => simp
  | some xs =>
    match xs with
    | [] => simp
    | [_] => simp
    | [_, _] => simp
    | [_, _, _] => simp
    | x :: y :: diameter :: hole :: rest =>
      simp only [exists_bind_iff, pure_eq_ok_iff, exists_eq', and_true, exists_and_right]
      constructor
      · rintro ⟨hx, hy, hdiameter, hhole⟩ _ _ _ _ _ h
        cases h
        exact ⟨hx, hy, hdiameter, hhole⟩
      · intro h
        exact h x y diameter hole rest rfl

def RoutingAdmissible (r : PyValue) : Prop :=
  ∃ items, r = .dict items ∧
    Elements (Constructs (TraceSegment.codec rt.pydantic)) ((lookup "traces" items).getD (.list [])) ∧
    Elements (ViaAdmissible rt) ((lookup "vias" items).getD (.list [])) ∧
    Elements (ReadAsText rt) ((lookup "layers_used" items).getD (.list [])) ∧
    Number rt ((lookup "total_trace_length_mm" items).getD (.float 0)) ∧
    Whole rt ((lookup "net_count" items).getD (.int 0)) ∧ Whole rt ((lookup "routed_net_count" items).getD (.int 0))

theorem exists_parseRouting_iff {r : PyValue} :
    (∃ routing, parseRouting rt r = .ok routing) ↔ RoutingAdmissible rt r := by
  unfold parseRouting RoutingAdmissible Elements Number Whole ReadAsText
  simp only [exists_bind_iff, itemsOf_eq_ok_iff, iterate_eq_ok_iff, orRaise_eq_ok_iff, pure_eq_ok_iff, exists_eq',
    and_true, exists_and_right, exists_mapM_iff, exists_gather_iff, exists_construct_iff, exists_parseVia_iff]
  simp only [← and_assoc, exists_and_right]
  -- the names of layers are visited before the numbers are read, and validated after them
  constructor
  · rintro ⟨items, ⟨⟨hr, htraces⟩, hvias⟩, layers, ⟨⟨⟨hlayers, htotal⟩, hnets⟩, hrouted⟩, htexts⟩
    exact ⟨items, ⟨⟨⟨⟨⟨hr, htraces⟩, hvias⟩, layers, hlayers, htexts⟩, htotal⟩, hnets⟩, hrouted⟩
  · rintro ⟨items, ⟨⟨⟨⟨⟨hr, htraces⟩, hvias⟩, layers, hlayers, htexts⟩, htotal⟩, hnets⟩, hrouted⟩
    exact ⟨items, ⟨⟨hr, htraces⟩, hvias⟩, layers, ⟨⟨⟨hlayers, htotal⟩, hnets⟩, hrouted⟩, htexts⟩

/-! ## Designs -/

/-- A mapping whose items a condition holds of. -/
def Items (P : PyValue × PyValue → Prop) (v : PyValue) : Prop := ∃ items, v = .dict items ∧ ∀ item ∈ items, P item

/-- A mapping whose sections raise nothing. -/
structure Admissible (raw : Raw) : Prop where
  board_def : ∀ bd, (lookup "board_def" raw).filter PyValue.truthy = some bd → BoardAdmissible rt bd
  routing : ∀ r, lookup "routing" raw = some r → RoutingAdmissible rt r
  drc_result : ∀ v, lookup "drc_result" raw = some v → Validates (DRCResult.codec rt.pydantic) v
  «meta» : Constructs (DesignMeta.codec rt.pydantic)
    ((lookup "meta" raw).getD (.dict [(.str "name", .str "Untitled")]))
  components : Items (fun item => ComponentAdmissible rt item ∧ ReadAsText rt item.1)
    ((lookup "components" raw).getD (.dict []))
  nets : Items (fun item => NetAdmissible rt item ∧ ReadAsText rt item.1) ((lookup "nets" raw).getD (.dict []))
  blocks : Elements (Constructs (Block.codec rt.pydantic)) ((lookup "blocks" raw).getD (.list []))
  board : Constructs (BoardConfig.codec rt.pydantic) ((lookup "board" raw).getD (.dict []))
  placement : ∀ v, lookup "placement" raw = some v → Items (fun item => PositionAdmissible rt item ∧
    ((coordinates item.2).isSome → ReadAsText rt item.1)) v
  net_classes : ∀ v, lookup "net_classes" raw = some v → Items (fun item => ClassAdmissible item ∧
    (isText item.2 → ReadAsText rt item.1)) v
  copper_pours : Items (fun item => Validates (CopperPourArea.codec rt.pydantic) item.2 ∧ ReadAsText rt item.1)
    ((lookup "copper_pours" raw).getD (.dict []))
  constraints : Validates (ConstraintSet.codec rt.pydantic) (orEmpty (lookup "constraints" raw))

structure Built (raw : Raw) (design : Design) : Prop where
  board_def : optional (parseBoardDefinition rt) ((lookup "board_def" raw).filter PyValue.truthy) =
    .ok design.board_def
  routing : optional (parseRouting rt) (lookup "routing" raw) = .ok design.routing
  drc_result : optional (fun v => orRaise .validationError ((DRCResult.codec rt.pydantic).validate v))
    (lookup "drc_result" raw) = .ok design.drc_result
  «meta» : construct (DesignMeta.codec rt.pydantic)
    ((lookup "meta" raw).getD (.dict [(.str "name", .str "Untitled")])) = .ok design.meta
  components : ∃ components, parseComponents rt raw = .ok components ∧
    textKeys rt components = .ok design.components
  nets : ∃ nets, parseNets rt raw = .ok nets ∧ textKeys rt nets = .ok design.nets
  blocks : ∃ blocks, iterate ((lookup "blocks" raw).getD (.list [])) = .ok blocks ∧
    blocks.mapM (construct (Block.codec rt.pydantic)) = .ok design.blocks
  board : construct (BoardConfig.codec rt.pydantic) ((lookup "board" raw).getD (.dict [])) = .ok design.board
  placement : ∃ placement, parsePlacement rt raw = .ok placement ∧
    optional (textKeys rt) placement = .ok design.placement
  net_classes : ∃ net_classes, parseNetClasses raw = .ok net_classes ∧
    optional (textKeys rt) net_classes = .ok design.net_classes
  copper_pours : ∃ copper_pours, parseCopperPours rt raw = .ok copper_pours ∧
    textKeys rt copper_pours = .ok design.copper_pours
  constraints : orRaise .validationError
    ((ConstraintSet.codec rt.pydantic).validate (orEmpty (lookup "constraints" raw))) = .ok design.constraints

theorem buildDesign_eq_ok_iff {raw : Raw} {design : Design} :
    buildDesign rt raw = .ok design ↔ Built rt raw design := by
  unfold buildDesign
  simp only [bind_eq_ok_iff]
  constructor
  · rintro ⟨board_def, hboard_def, routing, hrouting, drc_result, hdrc_result, «meta», hmeta, components,
      hcomponents, nets, hnets, entries, hentries, blocks, hblocks, board, hboard, placement, hplacement,
      net_classes, hnet_classes, copper_pours, hcopper_pours, constraints, hconstraints, components',
      hcomponents', nets', hnets', placement', hplacement', net_classes', hnet_classes', copper_pours',
      hcopper_pours', h⟩
    cases h
    exact ⟨hboard_def, hrouting, hdrc_result, hmeta, ⟨components, hcomponents, hcomponents'⟩,
      ⟨nets, hnets, hnets'⟩, ⟨entries, hentries, hblocks⟩, hboard, ⟨placement, hplacement, hplacement'⟩,
      ⟨net_classes, hnet_classes, hnet_classes'⟩, ⟨copper_pours, hcopper_pours, hcopper_pours'⟩, hconstraints⟩
  · rintro ⟨hboard_def, hrouting, hdrc_result, hmeta, ⟨components, hcomponents, hcomponents'⟩,
      ⟨nets, hnets, hnets'⟩, ⟨entries, hentries, hblocks⟩, hboard, ⟨placement, hplacement, hplacement'⟩,
      ⟨net_classes, hnet_classes, hnet_classes'⟩, ⟨copper_pours, hcopper_pours, hcopper_pours'⟩, hconstraints⟩
    exact ⟨_, hboard_def, _, hrouting, _, hdrc_result, _, hmeta, _, hcomponents, _, hnets, _, hentries, _, hblocks,
      _, hboard, _, hplacement, _, hnet_classes, _, hcopper_pours, _, hconstraints, _, hcomponents', _, hnets', _,
      hplacement', _, hnet_classes', _, hcopper_pours', rfl⟩

theorem exists_section_iff {α : Type} {f : PyValue × PyValue → Except PyException (PyValue × α)}
    {P : PyValue × PyValue → Prop} (hfst : ∀ item a, f item = .ok a → a.1 = item.1)
    (hP : ∀ item, (∃ a, f item = .ok a) ↔ P item) {v : PyValue} :
    (∃ as, (itemsOf v >>= fun items => items.mapM f) = .ok as ∧ ∃ d, textKeys rt as = .ok d) ↔
      Items (fun item => P item ∧ ReadAsText rt item.1) v := by
  simp only [bind_eq_ok_iff, itemsOf_eq_ok_iff, exists_textKeys_iff, Items]
  constructor
  · rintro ⟨as, ⟨items, hv, has⟩, htexts⟩
    refine ⟨items, hv, fun item hitem => ⟨(hP item).mp (exists_mapM_iff.mp ⟨as, has⟩ item hitem), ?_⟩⟩
    exact (forall_fst_of_mapM hfst has (ReadAsText rt)).mp htexts item hitem
  · rintro ⟨items, hv, hall⟩
    obtain ⟨as, has⟩ := exists_mapM_iff.mpr fun item hitem => (hP item).mpr (hall item hitem).1
    exact ⟨as, ⟨items, hv, has⟩,
      (forall_fst_of_mapM hfst has (ReadAsText rt)).mpr fun item hitem => (hall item hitem).2⟩

theorem forall_fst_of_gather {α : Type} {step : PyValue × PyValue → Except PyException (Option (PyValue × α))}
    {Q : PyValue × PyValue → Prop} (hkeep : ∀ item a, step item = .ok (some a) → a.1 = item.1 ∧ Q item)
    (hskip : ∀ item, step item = .ok none → ¬ Q item) {items : Raw} {as : List (PyValue × α)}
    (h : gather step items = .ok as) (P : PyValue → Prop) :
    (∀ a ∈ as, P a.1) ↔ ∀ item ∈ items, Q item → P item.1 := by
  obtain ⟨zs, hzs, rfl⟩ := Lists.gather_eq_ok_iff.mp h
  clear h
  induction hzs with
  | nil => exact iff_of_true nofun nofun
  | @cons item z items zs hitem hrest ih =>
    rw [List.forall_mem_cons, ← ih]
    cases z with
    | none =>
      rw [List.filterMap_cons_none rfl]
      exact (and_iff_right fun hq => absurd hq (hskip item hitem)).symm
    | some a =>
      obtain ⟨hfst, hq⟩ := hkeep item a hitem
      rw [List.filterMap_cons_some (f := id) (a := some a) rfl, List.forall_mem_cons, hfst, forall_prop_of_true hq]

theorem exists_skipping_iff {α : Type} {step : PyValue × PyValue → Except PyException (Option (PyValue × α))}
    {P Q : PyValue × PyValue → Prop} (hkeep : ∀ item a, step item = .ok (some a) → a.1 = item.1 ∧ Q item)
    (hskip : ∀ item, step item = .ok none → ¬ Q item) (hP : ∀ item, (∃ a, step item = .ok a) ↔ P item)
    {v : PyValue} :
    (∃ as, (itemsOf v >>= fun items => gather step items) = .ok as ∧ ∃ d, textKeys rt as = .ok d) ↔
      Items (fun item => P item ∧ (Q item → ReadAsText rt item.1)) v := by
  simp only [bind_eq_ok_iff, itemsOf_eq_ok_iff, exists_textKeys_iff, Items]
  constructor
  · rintro ⟨as, ⟨items, hv, has⟩, htexts⟩
    refine ⟨items, hv, fun item hitem => ⟨(hP item).mp (exists_gather_iff.mp ⟨as, has⟩ item hitem), ?_⟩⟩
    exact (forall_fst_of_gather hkeep hskip has (ReadAsText rt)).mp htexts item hitem
  · rintro ⟨items, hv, hall⟩
    obtain ⟨as, has⟩ := exists_gather_iff.mpr fun item hitem => (hP item).mpr (hall item hitem).1
    exact ⟨as, ⟨items, hv, has⟩,
      (forall_fst_of_gather hkeep hskip has (ReadAsText rt)).mpr fun item hitem => (hall item hitem).2⟩

theorem parseComponent_fst {component : PyValue × Component} (h : parseComponent rt item = .ok component) :
    component.1 = item.1 := by
  unfold parseComponent at h
  simp only [bind_eq_ok_iff] at h
  obtain ⟨comp_data, -, pins, -, parsed, -, resolved, -, -, -, c, -, texts, -, h⟩ := h
  cases h
  rfl

theorem parseNet_fst {net : PyValue × Net} (h : parseNet rt item = .ok net) : net.1 = item.1 := by
  unfold parseNet at h
  simp only [bind_eq_ok_iff] at h
  obtain ⟨net_data, -, elements, -, nodes, -, -, -, n, -, h⟩ := h
  cases h
  rfl

theorem parseCopperPour_fst {pour : PyValue × CopperPourArea} (h : parseCopperPour rt item = .ok pour) :
    pour.1 = item.1 := by
  obtain ⟨area, -, h⟩ := bind_eq_ok_iff.mp h
  cases h
  rfl

theorem parsePosition_some {place : PyValue × ℚ × ℚ} (h : parsePosition rt item = .ok (some place)) :
    place.1 = item.1 ∧ (coordinates item.2).isSome := by
  rw [parsePosition_eq] at h
  cases hxy : coordinates item.2 with
  | none =>
    rw [hxy] at h
    cases h
  | some xy =>
    rw [hxy] at h
    obtain ⟨x, -, h⟩ := bind_eq_ok_iff.mp h
    obtain ⟨y, -, h⟩ := bind_eq_ok_iff.mp h
    cases h
    exact ⟨rfl, rfl⟩

theorem parsePosition_none (h : parsePosition rt item = .ok none) : ¬ (coordinates item.2).isSome := by
  rw [parsePosition_eq] at h
  cases hxy : coordinates item.2 with
  | none => exact Bool.false_ne_true
  | some xy =>
    rw [hxy] at h
    obtain ⟨x, -, h⟩ := bind_eq_ok_iff.mp h
    obtain ⟨y, -, h⟩ := bind_eq_ok_iff.mp h
    cases h

theorem parseNetClass_some {cls : PyValue × NetClass} (h : parseNetClass item = .ok (some cls)) :
    cls.1 = item.1 ∧ isText item.2 := by
  obtain ⟨net_id, nc⟩ := item
  unfold parseNetClass at h
  cases nc with
  | str nc_str =>
    obtain ⟨c, -, h⟩ := bind_eq_ok_iff.mp h
    cases h
    exact ⟨rfl, rfl⟩
  | _ => cases h

theorem parseNetClass_none (h : parseNetClass item = .ok none) : ¬ isText item.2 := by
  obtain ⟨net_id, nc⟩ := item
  unfold parseNetClass at h
  cases nc with
  | str nc_str =>
    obtain ⟨c, -, h⟩ := bind_eq_ok_iff.mp h
    cases h
  | _ => exact Bool.false_ne_true

theorem exists_optional_optional_iff {α β γ : Type} {parse : α → Except PyException β}
    {keys : β → Except PyException γ} {o : Option α} :
    (∃ b, optional parse o = .ok b ∧ ∃ c, optional keys b = .ok c) ↔
      ∀ a, o = some a → ∃ b, parse a = .ok b ∧ ∃ c, keys b = .ok c := by
  cases o with
  | none => exact iff_of_true ⟨none, rfl, none, rfl⟩ nofun
  | some a =>
    constructor
    · rintro ⟨b, hb, c, hc⟩ _ ⟨⟩
      obtain ⟨b, hparse, hb⟩ := bind_eq_ok_iff.mp hb
      cases hb
      exact ⟨b, hparse, exists_optional_iff.mp ⟨c, hc⟩ b rfl⟩
    · intro h
      obtain ⟨b, hparse, c, hkeys⟩ := h a rfl
      exact ⟨some b, bind_eq_ok_iff.mpr ⟨b, hparse, rfl⟩, some c, bind_eq_ok_iff.mpr ⟨c, hkeys, rfl⟩⟩

/-- **A mapping becomes a design when its sections raise nothing.** -/
theorem exists_buildDesign_iff {raw : Raw} : (∃ design, buildDesign rt raw = .ok design) ↔ Admissible rt raw := by
  constructor
  · rintro ⟨design, h⟩
    obtain ⟨hboard_def, hrouting, hdrc_result, hmeta, ⟨components, hcomponents, hcomponents'⟩,
      ⟨nets, hnets, hnets'⟩, ⟨entries, hentries, hblocks⟩, hboard, ⟨placement, hplacement, hplacement'⟩,
      ⟨net_classes, hnet_classes, hnet_classes'⟩, ⟨copper_pours, hcopper_pours, hcopper_pours'⟩,
      hconstraints⟩ := (buildDesign_eq_ok_iff rt).mp h
    exact {
      board_def := fun bd hbd => (exists_parseBoardDefinition_iff rt).mp
        (exists_optional_iff.mp ⟨_, hboard_def⟩ bd hbd)
      routing := fun r hr => (exists_parseRouting_iff rt).mp (exists_optional_iff.mp ⟨_, hrouting⟩ r hr)
      drc_result := fun v hv => by simpa [Validates] using exists_optional_iff.mp ⟨_, hdrc_result⟩ v hv
      «meta» := exists_construct_iff.mp ⟨_, hmeta⟩
      components := (exists_section_iff rt (fun _ _ => parseComponent_fst rt)
        fun _ => exists_parseComponent_iff rt).mp ⟨components, hcomponents, _, hcomponents'⟩
      nets := (exists_section_iff rt (fun _ _ => parseNet_fst rt) fun _ => exists_parseNet_iff rt).mp
        ⟨nets, hnets, _, hnets'⟩
      blocks := ⟨entries, iterate_eq_ok_iff.mp hentries, fun v hv =>
        exists_construct_iff.mp (exists_mapM_iff.mp ⟨_, hblocks⟩ v hv)⟩
      board := exists_construct_iff.mp ⟨_, hboard⟩
      placement := fun v hv => (exists_skipping_iff rt (fun _ _ => parsePosition_some rt)
        (fun _ => parsePosition_none rt) fun _ => exists_parsePosition_iff rt).mp
          (exists_optional_optional_iff.mp ⟨placement, hplacement, _, hplacement'⟩ v hv)
      net_classes := fun v hv => (exists_skipping_iff rt (fun _ _ => parseNetClass_some)
        (fun _ => parseNetClass_none) fun _ => exists_parseNetClass_iff).mp
          (exists_optional_optional_iff.mp ⟨net_classes, hnet_classes, _, hnet_classes'⟩ v hv)
      copper_pours := (exists_section_iff rt (fun _ _ => parseCopperPour_fst rt)
        fun _ => exists_parseCopperPour_iff rt).mp ⟨copper_pours, hcopper_pours, _, hcopper_pours'⟩
      constraints := ⟨_, orRaise_eq_ok_iff.mp hconstraints⟩ }
  · intro h
    obtain ⟨board_def, hboard_def⟩ := exists_optional_iff.mpr fun bd hbd =>
      (exists_parseBoardDefinition_iff rt).mpr (h.board_def bd hbd)
    obtain ⟨routing, hrouting⟩ := exists_optional_iff.mpr fun r hr =>
      (exists_parseRouting_iff rt).mpr (h.routing r hr)
    obtain ⟨drc_result, hdrc_result⟩ := exists_optional_iff.mpr fun v hv =>
      (h.drc_result v hv).imp fun a ha => orRaise_eq_ok_iff (e := .validationError) |>.mpr ha
    obtain ⟨«meta», hmeta⟩ := exists_construct_iff.mpr h.meta
    obtain ⟨components, hcomponents, components', hcomponents'⟩ :=
      (exists_section_iff rt (fun _ _ => parseComponent_fst rt) fun _ => exists_parseComponent_iff rt).mpr h.components
    obtain ⟨nets, hnets, nets', hnets'⟩ :=
      (exists_section_iff rt (fun _ _ => parseNet_fst rt) fun _ => exists_parseNet_iff rt).mpr h.nets
    obtain ⟨entries, hentries, hall⟩ := h.blocks
    obtain ⟨blocks, hblocks⟩ := exists_mapM_iff.mpr fun v hv => exists_construct_iff.mpr (hall v hv)
    obtain ⟨board, hboard⟩ := exists_construct_iff.mpr h.board
    obtain ⟨placement, hplacement, placement', hplacement'⟩ := exists_optional_optional_iff.mpr fun v hv =>
      (exists_skipping_iff rt (fun _ _ => parsePosition_some rt) (fun _ => parsePosition_none rt)
        fun _ => exists_parsePosition_iff rt).mpr (h.placement v hv)
    obtain ⟨net_classes, hnet_classes, net_classes', hnet_classes'⟩ := exists_optional_optional_iff.mpr fun v hv =>
      (exists_skipping_iff rt (fun _ _ => parseNetClass_some) (fun _ => parseNetClass_none)
        fun _ => exists_parseNetClass_iff).mpr (h.net_classes v hv)
    obtain ⟨copper_pours, hcopper_pours, copper_pours', hcopper_pours'⟩ :=
      (exists_section_iff rt (fun _ _ => parseCopperPour_fst rt) fun _ => exists_parseCopperPour_iff rt).mpr
        h.copper_pours
    obtain ⟨constraints, hconstraints⟩ := h.constraints
    exact ⟨Design.mk «meta» components' nets' blocks board board_def placement' routing net_classes' drc_result
      copper_pours' constraints, (buildDesign_eq_ok_iff rt).mpr ⟨hboard_def, hrouting, hdrc_result, hmeta,
        ⟨components, hcomponents, hcomponents'⟩, ⟨nets, hnets, hnets'⟩,
        ⟨entries, iterate_eq_ok_iff.mpr hentries, hblocks⟩, hboard, ⟨placement, hplacement, hplacement'⟩,
        ⟨net_classes, hnet_classes, hnet_classes'⟩, ⟨copper_pours, hcopper_pours, hcopper_pours'⟩,
        orRaise_eq_ok_iff.mpr hconstraints⟩⟩

end ZapTrace.Schema
