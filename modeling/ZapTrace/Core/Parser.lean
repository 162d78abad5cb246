import Mathlib.Data.Rat.Defs
import ZapTrace.Core.Schema
import ZapTrace.Library.Lists

/-!
# The parser of design files

The mapping that a design file loads as becomes a design section by section. A section parser reads its
entries in order. An entry of a shape that it has no branch for is skipped; whatever else goes wrong raises
an exception, and the parser of the file reports it as a parse error.

The conversions `float`, `int` and `str`, the validators of scalars, the loader of YAML and the table of
verified footprints are parameters. Numbers are exact, so no conversion overflows.
-/

namespace ZapTrace.Schema

open PyValue (lookup)
open Lists (gather)

/-- The exceptions of the statements of the parser. -/
inductive PyException
  | keyError
  | typeError
  | valueError
  | attributeError
  /-- `pydantic.ValidationError` -/
  | validationError
  deriving DecidableEq

/-- What the parser takes from its surroundings. -/
structure Runtime where
  pydantic : Pydantic
  text : PyText
  /-- `float(value)` -/
  float : PyValue → Except PyException ℚ
  /-- `int(value)` -/
  int : PyValue → Except PyException ℤ
  /-- The geometry of a registered footprint. -/
  resolve_verified_footprint : String → Except PyException FootprintDef
  /-- `==` on footprints -/
  same_footprint : FootprintDef → FootprintDef → Bool
  /-- `yaml.safe_load(content)`, without a value for a syntax error. -/
  safe_load : String → Option PyValue

/-- The items of a mapping. -/
abbrev Raw := List (PyValue × PyValue)

/-! ## Statements -/

section

variable {α : Type}

/-- A value, or an exception in its place. -/
def orRaise (e : PyException) : Option α → Except PyException α
  | some a => .ok a
  | none => .error e

/-- `for element in value` -/
def iterate (v : PyValue) : Except PyException (List PyValue) := orRaise .typeError v.elements

/-- `value.items()` and `value.get(key)`: other values have no such attribute. -/
def itemsOf (v : PyValue) : Except PyException Raw := orRaise .attributeError v.items?

/-- `value or {}` -/
def orEmpty (v : Option PyValue) : PyValue := (v.filter PyValue.truthy).getD (.dict [])

def isText : PyValue → Bool
  | .str _ => true
  | _ => false

/-- The names of keyword arguments are texts. -/
def keywords (items : Raw) : Except PyException Unit :=
  if items.all fun item => isText item.1 then .ok () else .error .typeError

/-- `Model(**value)` -/
def construct (c : Codec α) (v : PyValue) : Except PyException α := do
  keywords (← orRaise .typeError v.items?)
  orRaise .validationError (c.validate v)

/-- A section that may be missing. -/
def optional {β : Type} (parse : α → Except PyException β) : Option α → Except PyException (Option β)
  | some a => do return some (← parse a)
  | none => return none

/-- The items of a mapping under other keys than these. -/
def without (names : List String) (items : Raw) : Raw :=
  items.filter fun item => ∀ name ∈ names, (lookup name [item]).isNone

end

variable (rt : Runtime)

/-- The keys of a dictionary of a model are validated as texts. -/
def textKeys {α : Type} (items : List (PyValue × α)) : Except PyException (Dict String α) := do
  return .ofItems (← items.mapM fun item =>
    return (← orRaise .validationError (rt.pydantic.toStr item.1), item.2))

/-! ## Components -/

def parsePin (item : PyValue × PyValue) : Except PyException (PyValue × Pin) := do
  let pin_data : PyValue := match item.2 with
    | .str type => .dict [(.str "type", .str type)]
    | pin_data => pin_data
  -- the name comes last in the source, so it is the one that counts
  let fields := (.str "name", item.1) :: (← orRaise .typeError pin_data.items?)
  return (item.1, ← orRaise .validationError ((Pin.codec rt.pydantic).validate (.dict fields)))

/-- A registered footprint next to the inline geometry of a component, which must be the same. -/
def checkedFootprint (filtered_comp : Raw) (resolved : FootprintDef) : Except PyException FootprintDef :=
  match lookup "footprint_def" filtered_comp with
  | none | some .none => return resolved
  | some inline => do
    let candidate ← orRaise .validationError ((FootprintDef.codec rt.pydantic).validate inline)
    if rt.same_footprint candidate resolved then return resolved else .error .valueError

/-- The geometry of the registered footprint that a component names. -/
def resolvedFootprint (filtered_comp : Raw) : Except PyException (Option FootprintDef) :=
  match lookup "footprint_asset" filtered_comp with
  | none | some .none => return none
  | some (.str asset_id) => do
    let resolved ← rt.resolve_verified_footprint asset_id
    return some (← checkedFootprint rt filtered_comp resolved)
  | some _ => .error .valueError

def parseComponent (item : PyValue × PyValue) : Except PyException (PyValue × Component) := do
  let comp_data ← itemsOf item.2
  let pins ← (← itemsOf (orEmpty (lookup "pins" comp_data))).mapM (parsePin rt)
  let filtered_comp := without ["pins", "id"] comp_data
  let resolved ← resolvedFootprint rt filtered_comp
  keywords filtered_comp
  -- the pins and a resolved footprint are instances already, and are taken as they are
  let given := if resolved.isSome then without ["footprint_def"] filtered_comp else filtered_comp
  let component ← orRaise .validationError
    ((Component.fields rt.pydantic (rt.pydantic.dict (Pin.codec rt.pydantic))
      (FootprintDef.codec rt.pydantic)).read fun n => if n = "id" then some item.1 else lookup n given)
  let pins ← textKeys rt pins
  return (item.1, { component with pins, footprint_def := resolved.or component.footprint_def })

def parseComponents (raw : Raw) : Except PyException (List (PyValue × Component)) := do
  (← itemsOf ((lookup "components" raw).getD (.dict []))).mapM (parseComponent rt)

/-! ## Nets -/

/-- `ref, pin = node.split(".", 1)` -/
def splitNode (node : String) : NetNode where
  component_ref := .ofList (node.toList.takeWhile fun c => c ≠ '.')
  pin_name := .ofList (node.toList.dropWhile fun c => c ≠ '.').tail

/-- One node of a net: a text with a dot, or a mapping. Anything else is skipped. -/
def parseNode (node : PyValue) : Except PyException (Option NetNode) :=
  match node with
  | .str s => if '.' ∈ s.toList then return some (splitNode s) else return none
  | .dict items => do return some (← construct (NetNode.codec rt.pydantic) (.dict items))
  | _ => return none

def parseNet (item : PyValue × PyValue) : Except PyException (PyValue × Net) := do
  let net_data ← itemsOf item.2
  let nodes ← gather (parseNode rt) (← iterate ((lookup "nodes" net_data).getD (.list [])))
  let filtered_net := without ["nodes", "id"] net_data
  keywords filtered_net
  let net ← orRaise .validationError
    ((Net.fields rt.pydantic (NetNode.codec rt.pydantic).list).read fun n =>
      if n = "id" then some item.1 else lookup n filtered_net)
  return (item.1, { net with nodes })

def parseNets (raw : Raw) : Except PyException (List (PyValue × Net)) := do
  (← itemsOf ((lookup "nets" raw).getD (.dict []))).mapM (parseNet rt)

/-! ## Placement, net classes and pours -/

/-- The place of one component: two coordinates, or a mapping that has them. Anything else is skipped. -/
def parsePosition (item : PyValue × PyValue) : Except PyException (Option (PyValue × ℚ × ℚ)) :=
  match item.2 with
  | .list [x, y] => do return some (item.1, ← rt.float x, ← rt.float y)
  | .tuple [x, y] => do return some (item.1, ← rt.float x, ← rt.float y)
  | .dict pos =>
    match lookup "x" pos, lookup "y" pos with
    | some x, some y => do return some (item.1, ← rt.float x, ← rt.float y)
    | _, _ => return none
  | _ => return none

def parsePlacement (raw : Raw) : Except PyException (Option (List (PyValue × ℚ × ℚ))) :=
  optional (fun placement => do gather (parsePosition rt) (← itemsOf placement)) (lookup "placement" raw)

/-- The class of one net: a text. Anything else is skipped. -/
def parseNetClass (item : PyValue × PyValue) : Except PyException (Option (PyValue × NetClass)) :=
  match item.2 with
  | .str nc_str => do return some (item.1, ← orRaise .valueError (NetClass.codec.validate (.str nc_str)))
  | _ => return none

def parseNetClasses (raw : Raw) : Except PyException (Option (List (PyValue × NetClass))) :=
  optional (fun net_classes => do gather parseNetClass (← itemsOf net_classes)) (lookup "net_classes" raw)

def parseCopperPour (item : PyValue × PyValue) : Except PyException (PyValue × CopperPourArea) := do
  return (item.1, ← orRaise .validationError ((CopperPourArea.codec rt.pydantic).validate item.2))

def parseCopperPours (raw : Raw) : Except PyException (List (PyValue × CopperPourArea)) := do
  (← itemsOf ((lookup "copper_pours" raw).getD (.dict []))).mapM (parseCopperPour rt)

/-! ## The board and its routing -/

/-- A point of an outline: the first two coordinates of a list or a tuple. Anything else is skipped. -/
def parsePoint (pt : PyValue) : Except PyException (Option (ℚ × ℚ)) :=
  match pt.sequence? with
  | some (x :: y :: _) => do return some (← rt.float x, ← rt.float y)
  | _ => return none

def parsePolygon (polygon : PyValue) : Except PyException (List (ℚ × ℚ)) := do
  gather (parsePoint rt) (← iterate polygon)

def parseBoardDefinition (bd : PyValue) : Except PyException BoardDefinition := do
  let bd ← itemsOf bd
  let layer_stack ← (← iterate ((lookup "layer_stack" bd).getD (.list []))).mapM
    (construct (LayerSpec.codec rt.pydantic))
  let outline ← parsePolygon rt ((lookup "outline" bd).getD (.list []))
  let cutouts ← (← iterate ((lookup "cutouts" bd).getD (.list []))).mapM (parsePolygon rt)
  let mounting_holes ← (← iterate ((lookup "mounting_holes" bd).getD (.list []))).mapM
    (construct (MountingHole.codec rt.pydantic))
  let width ← rt.float ((lookup "width" bd).getD (.float 100))
  let height ← rt.float ((lookup "height" bd).getD (.float 80))
  let layers ← rt.int ((lookup "layers" bd).getD (.int 2))
  let constraints ← orRaise .validationError
    ((BoardConstraints.codec rt.pydantic).validate (orEmpty (lookup "constraints" bd)))
  let copper_pour_gnd := ((lookup "copper_pour_gnd" bd).getD (.bool true)).truthy
  return { width, height, layers, layer_stack, outline, cutouts, mounting_holes, constraints, copper_pour_gnd }

/-- The net of a via: the text of the fifth element, if there is one and it is not `None`. -/
def viaNet (rest : List PyValue) : Option String :=
  match rest with
  | [] | .none :: _ => none
  | net :: _ => some (rt.text.str net)

def viaOf (x y diameter hole : ℚ) : Option String → Via
  | some net => .five x y diameter hole net
  | none => .four x y diameter hole

/-- A via: the first four elements of a list or a tuple, and the net. Anything else is skipped. -/
def parseVia (v : PyValue) : Except PyException (Option Via) :=
  match v.sequence? with
  | some (x :: y :: diameter :: hole :: rest) => do
    return some (viaOf (← rt.float x) (← rt.float y) (← rt.float diameter) (← rt.float hole) (viaNet rt rest))
  | _ => return none

def parseRouting (r : PyValue) : Except PyException RouteResult := do
  let r ← itemsOf r
  let traces ← (← iterate ((lookup "traces" r).getD (.list []))).mapM
    (construct (TraceSegment.codec rt.pydantic))
  let vias ← gather (parseVia rt) (← iterate ((lookup "vias" r).getD (.list [])))
  let layers_used ← iterate ((lookup "layers_used" r).getD (.list []))
  let total_trace_length_mm ← rt.float ((lookup "total_trace_length_mm" r).getD (.float 0))
  let net_count ← rt.int ((lookup "net_count" r).getD (.int 0))
  let routed_net_count ← rt.int ((lookup "routed_net_count" r).getD (.int 0))
  let layers_used ← layers_used.mapM fun layer => orRaise .validationError (rt.pydantic.toStr layer)
  return { traces, vias, layers_used, total_trace_length_mm, net_count, routed_net_count }

/-! ## Designs -/

/-- A design from a loaded mapping. The keys of its dictionaries are validated last. -/
def buildDesign (raw : Raw) : Except PyException Design := do
  let board_def ← optional (parseBoardDefinition rt) ((lookup "board_def" raw).filter PyValue.truthy)
  let routing ← optional (parseRouting rt) (lookup "routing" raw)
  let drc_result ← optional (fun v => orRaise .validationError ((DRCResult.codec rt.pydantic).validate v))
    (lookup "drc_result" raw)
  let «meta» ← construct (DesignMeta.codec rt.pydantic)
    ((lookup "meta" raw).getD (.dict [(.str "name", .str "Untitled")]))
  let components ← parseComponents rt raw
  let nets ← parseNets rt raw
  let blocks ← (← iterate ((lookup "blocks" raw).getD (.list []))).mapM (construct (Block.codec rt.pydantic))
  let board ← construct (BoardConfig.codec rt.pydantic) ((lookup "board" raw).getD (.dict []))
  let placement ← parsePlacement rt raw
  let net_classes ← parseNetClasses raw
  let copper_pours ← parseCopperPours rt raw
  let constraints ← orRaise .validationError
    ((ConstraintSet.codec rt.pydantic).validate (orEmpty (lookup "constraints" raw)))
  let components ← textKeys rt components
  let nets ← textKeys rt nets
  let placement ← optional (textKeys rt) placement
  let net_classes ← optional (textKeys rt) net_classes
  let copper_pours ← textKeys rt copper_pours
  return {
    «meta», components, nets, blocks, board, board_def, placement, routing, net_classes, drc_result,
    copper_pours, constraints }

/-! ## Files -/

inductive ParseError
  | yamlSyntax
  | notAMapping
  /-- The signature of release mode. -/
  | signature (message : String)
  | schemaValidation
  | structural
  deriving DecidableEq

def allowedTopLevelKeys : List String :=
  ["kind", "schema_version", "meta", "board", "board_def", "components", "nets", "blocks", "placement", "routing",
    "net_classes", "drc_result", "copper_pours", "constraints"]

/-- A value is among these, by Python's equality. -/
def isOneOf (v : Option PyValue) (allowed : List PyValue) : Bool :=
  allowed.any fun w => (v.getD .none).eqv w

def text? : PyValue → Option String
  | .str s => some s
  | _ => none

/-- The signature of release mode. Unknown keys are joined into the message, which is a type error of its own
when one of them is no text. -/
def validateDesignSignature (raw : Raw) (source : String) (strict : Bool) :
    Except (ParseError ⊕ PyException) Unit :=
  let signature (message : String) : Except (ParseError ⊕ PyException) Unit :=
    .error (.inl (.signature ("Strict design signature " ++ message)))
  let filled (key : String) : Bool :=
    (((lookup key raw).bind PyValue.items?).filter fun items => !items.isEmpty).isSome
  let named : Bool := match (lookup "meta" raw).bind PyValue.items? with
    | some fields => pyStrip (rt.text.str ((lookup "name" fields).getD (.str ""))) ≠ ""
    | none => false
  let unknown := (raw.filter fun item => allowedTopLevelKeys.all fun key => (lookup key [item]).isNone).map Prod.fst
  if !strict then .ok ()
  else if !isOneOf (lookup "kind" raw) [.str "zaptrace.design"] then
    signature ("missing kind: zaptrace.design in " ++ source)
  else if !isOneOf (lookup "schema_version" raw) [.int 1, .str "1", .str "1.0"] then
    signature ("missing supported schema_version in " ++ source)
  else if !named then signature ("requires meta.name in " ++ source)
  else if !filled "components" then signature ("requires non-empty components mapping in " ++ source)
  else if !filled "nets" then signature ("requires non-empty nets mapping in " ++ source)
  else if unknown.isEmpty then .ok ()
  else if unknown.all isText then
    signature ("rejects unknown top-level keys in " ++ source ++ ": " ++
      ", ".intercalate ((unknown.filterMap text?).mergeSort fun a b => a ≤ b))
  else .error (.inr .typeError)

/-- The parse error that an exception of the build is reported as. -/
def reported : PyException → ParseError
  | .validationError => .schemaValidation
  | .keyError | .typeError | .valueError | .attributeError => .structural

def parseStr (content source : String) (strict : Bool) : Except (ParseError ⊕ PyException) Design := do
  match rt.safe_load content with
  | none => .error (.inl .yamlSyntax)
  | some (.dict raw) =>
    validateDesignSignature rt raw source strict
    match buildDesign rt raw with
    | .ok design => return design
    | .error e => .error (.inl (reported e))
  | some _ => .error (.inl .notAMapping)

end ZapTrace.Schema
