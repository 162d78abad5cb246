import ZapTrace.Core.Schema

/-!
# Removing a component

A component is removed with the nodes that name its reference designator, and a net that is left without nodes is
removed with them. The tool and the transaction do the same to the design. Nodes may name a component by its identifier
as well, and pins, the routing, the pours and the placement name nets and components; none of these is visited.

## Main results

* `removal_closed_iff`: when a removal leaves a closed design
-/

namespace ZapTrace.Schema

open List Dict Prod

variable (design : Design)

/-! ## The programs -/

def Net.without (net : Net) (ref : String) : Net :=
  { net with nodes := net.nodes.filter fun node => node.component_ref ≠ ref }

/-- The part that both have: the design, the reference designator and the nets that were removed. -/
def removeComponent (component_id : String) : Except String (Design × String × List String) :=
  match design.components.get? component_id with
  | none => .error s!"Component '{component_id}' not in design"
  | some component =>
    let nets := design.nets.mapValues fun net => net.without component.ref
    let nets_to_remove := (nets.items.filter fun item => item.2.nodes.isEmpty).map fst
    let components := design.components.erase component_id
    .ok ({ design with components := components, nets := nets_to_remove.foldl erase nets }, component.ref,
      nets_to_remove)

def applyComponentRemove (component_id : String) : Except String Design := do
  let removed ← removeComponent design component_id
  pure removed.1

structure ComponentRemoval where
  design : String
  removed_component : String
  ref : String
  removed_orphan_nets : List String

/-- `tool_component_remove` on the designs of a session, before they are persisted. -/
def toolComponentRemove (designs : Dict String Design) (design_name component_id : String) :
    Except String (Dict String Design × ComponentRemoval) :=
  match designs.get? design_name with
  | none => .error s!"Design '{design_name}' not found"
  | some design => do
    let (design', ref, orphans) ← removeComponent design component_id
    pure (designs.set design_name design', ⟨design_name, component_id, ref, orphans⟩)

/-! ## Closed designs -/

/-- A component is named by the identifier it stands under or by its reference designator. -/
def Names (item : String × Component) (name : String) : Prop := name = item.1 ∨ name = item.2.ref

def Via.net? : Via → Option String
  | four .. => none
  | five _ _ _ _ net => some net

def pinNets (components : Dict String Component) : List String :=
  components.values.flatMap fun component => component.pins.values.filterMap Pin.net

/-- The nets that traces, vias and pours name. -/
def boardNets : List String :=
  (design.routing.toList.flatMap fun routing =>
    routing.traces.map TraceSegment.net_id ++ routing.vias.filterMap Via.net?) ++
    design.copper_pours.values.map CopperPourArea.net_id

def placedNames : List String := design.placement.toList.flatMap Dict.keys

/-- What is named is there: each node names exactly one component, and the other tables name components and nets. -/
structure Closed : Prop where
  nodes : ∀ key net, design.nets.get? key = some net → ∀ node ∈ net.nodes,
    ∃! item, item ∈ design.components.items ∧ Names item node.component_ref
  nets : ∀ net_id ∈ pinNets design.components ++ boardNets design, net_id ∈ design.nets.keys
  placement : ∀ name ∈ placedNames design, ∃ item ∈ design.components.items, Names item name

/-- The nodes of the components that are left are left. -/
def KeepsNodes (design' : Design) : Prop :=
  ∀ key net, design.nets.get? key = some net → ∀ node ∈ net.nodes,
    (∃ item ∈ design'.components.items, Names item node.component_ref) →
      ∃ net', design'.nets.get? key = some net' ∧ node ∈ net'.nodes

/-- Nothing is left that names the component, or a net without nodes of other components. -/
structure Clean (component_id : String) (component : Component) : Prop where
  nodes : ∀ key net, design.nets.get? key = some net → ∀ node ∈ net.nodes, node.component_ref = component_id →
    component_id = component.ref
  nets : ∀ net_id ∈ pinNets (design.components.erase component_id) ++ boardNets design,
    ∀ net, design.nets.get? net_id = some net → ∃ node ∈ net.nodes, node.component_ref ≠ component.ref
  placement : ∀ name ∈ placedNames design, Names (component_id, component) name →
    ∃ item ∈ (design.components.erase component_id).items, Names item name

/-! ## What is left -/

variable {design} {component_id : String} {component : Component}

/-- One of the programs makes a design of another. -/
def Removes (design : Design) (component_id : String) (design' : Design) : Prop :=
  applyComponentRemove design component_id = .ok design' ∨
    ∃ designs design_name report designs', designs.get? design_name = some design ∧
      toolComponentRemove designs design_name component_id = .ok (designs', report) ∧
        designs'.get? design_name = some design'

theorem mem_erase_items {item : String × Component} :
    item ∈ (design.components.erase component_id).items ↔ item ∈ design.components.items ∧ item.1 ≠ component_id := by
  obtain ⟨key, other⟩ := item
  rw [← get?_eq_some_iff, get?_erase, ← get?_eq_some_iff]
  by_cases h : key = component_id <;> simp [h]

theorem eq_of_mem_items (hget : design.components.get? component_id = some component) {item : String × Component}
    (hitem : item ∈ design.components.items) (hremoved : item.1 = component_id) : item.2 = component := by
  obtain ⟨key, other⟩ := item
  obtain rfl : key = component_id := hremoved
  rw [← get?_eq_some_iff, hget] at hitem
  exact (Option.some.inj hitem).symm

section Removal

variable {design' : Design} (hget : design.components.get? component_id = some component)
  (hremoves : Removes design component_id design')

include hget hremoves

theorem fields_of_removes : design'.components = design.components.erase component_id ∧
    boardNets design' = boardNets design ∧ placedNames design' = placedNames design ∧
      ∀ key net', design'.nets.get? key = some net' ↔
        ∃ net, design.nets.get? key = some net ∧ net' = net.without component.ref ∧ net'.nodes ≠ [] := by
  have hlookup : ∀ key net', (((((design.nets.mapValues fun net => net.without component.ref).items.filter
      fun item => item.2.nodes.isEmpty).map fst).foldl erase
        (design.nets.mapValues fun net => net.without component.ref)).get? key = some net' ↔
        ∃ net, design.nets.get? key = some net ∧ net' = net.without component.ref ∧ net'.nodes ≠ []) := by
    intro key net'
    have hempty : key ∈ ((design.nets.mapValues fun net => net.without component.ref).items.filter
        fun item => item.2.nodes.isEmpty).map fst ↔
          ∃ net, design.nets.get? key = some net ∧ (net.without component.ref).nodes = [] := by
      rw [mem_map]
      constructor
      · rintro ⟨⟨key, net⟩, hitem, rfl⟩
        obtain ⟨hitem, hnone⟩ := mem_filter.mp hitem
        rw [← get?_eq_some_iff, get?_mapValues, Option.map_eq_some_iff] at hitem
        obtain ⟨net, hnet, rfl⟩ := hitem
        exact ⟨net, hnet, isEmpty_iff.mp hnone⟩
      · rintro ⟨net, hnet, hnone⟩
        refine ⟨(key, net.without component.ref), mem_filter.mpr ⟨?_, isEmpty_iff.mpr hnone⟩, rfl⟩
        rw [← get?_eq_some_iff, get?_mapValues, hnet]
        rfl
    rw [get?_foldl_erase, get?_mapValues]
    split
    next hmem =>
      obtain ⟨net, hnet, hnone⟩ := hempty.mp hmem
      refine iff_of_false (fun h => by cases h) ?_
      rintro ⟨net₁, hnet₁, rfl, hsome⟩
      rw [hnet] at hnet₁
      cases hnet₁
      exact hsome hnone
    next hmem =>
      rw [Option.map_eq_some_iff]
      constructor
      · rintro ⟨net, hnet, rfl⟩
        exact ⟨net, hnet, rfl, fun hnone => hmem (hempty.mpr ⟨net, hnet, hnone⟩)⟩
      · rintro ⟨net, hnet, rfl, -⟩
        exact ⟨net, hnet, rfl⟩
  rcases hremoves with happly | ⟨designs, design_name, report, designs', hdesign, htool, hdesign'⟩
  · rw [applyComponentRemove, removeComponent, hget] at happly
    obtain rfl := Except.ok.inj happly
    exact ⟨rfl, rfl, rfl, hlookup⟩
  · rw [toolComponentRemove, hdesign] at htool
    simp only [removeComponent, hget] at htool
    obtain ⟨rfl, -⟩ := mk.inj (Except.ok.inj htool)
    rw [get?_set_self] at hdesign'
    obtain rfl := Option.some.inj hdesign'
    exact ⟨rfl, rfl, rfl, hlookup⟩

variable (hclosed : Closed design)

include hclosed

theorem keepsNodes_of_removes : KeepsNodes design design' := by
  obtain ⟨hcomponents, -, -, hnets⟩ := fields_of_removes hget hremoves
  intro key net hnet node hnode howner
  have hother : node.component_ref ≠ component.ref := by
    intro href
    obtain ⟨item, hitem, hnames⟩ := howner
    rw [hcomponents, mem_erase_items] at hitem
    have hunique := (hclosed.nodes key net hnet node hnode).unique ⟨hitem.1, hnames⟩
      ⟨get?_eq_some_iff.mp hget, .inr href⟩
    exact hitem.2 (congrArg fst hunique)
  have hleft : node ∈ (net.without component.ref).nodes := mem_filter.mpr ⟨hnode, decide_eq_true hother⟩
  exact ⟨_, (hnets key _).mpr ⟨net, hnet, rfl, ne_nil_of_mem hleft⟩, hleft⟩

/-- **A removal** takes no node of another component away, and leaves a closed design exactly when nothing is left that
names the component or a net that is removed. -/
theorem removal_closed_iff :
    (Closed design' ∧ KeepsNodes design design') ↔ Clean design component_id component := by
  rw [and_iff_left (keepsNodes_of_removes hget hremoves hclosed)]
  obtain ⟨hcomponents, hboard, hplaced, hnets⟩ := fields_of_removes hget hremoves
  have hkey : ∀ net_id, net_id ∈ design'.nets.keys ↔
      ∃ net, design.nets.get? net_id = some net ∧ ∃ node ∈ net.nodes, node.component_ref ≠ component.ref := by
    intro net_id
    rw [mem_keys_iff]
    simp only [hnets]
    constructor
    · rintro ⟨_, net, hnet, rfl, hsome⟩
      obtain ⟨node, hnode⟩ := exists_mem_of_ne_nil _ hsome
      obtain ⟨hmem, hother⟩ := mem_filter.mp hnode
      exact ⟨net, hnet, node, hmem, of_decide_eq_true hother⟩
    · rintro ⟨net, hnet, node, hmem, hother⟩
      exact ⟨_, net, hnet, rfl, ne_nil_of_mem (mem_filter.mpr ⟨hmem, decide_eq_true hother⟩)⟩
  constructor
  · intro h
    refine ⟨fun key net hnet node hnode hname => ?_, fun net_id hmem net hnet => ?_, fun name hname _ => ?_⟩
    · by_contra hne
      -- the node stays, and names the component that is gone
      have hother : node.component_ref ≠ component.ref := hname.trans_ne hne
      have hleft : node ∈ (net.without component.ref).nodes := mem_filter.mpr ⟨hnode, decide_eq_true hother⟩
      obtain ⟨item, ⟨hitem, hnames⟩, -⟩ :=
        h.nodes key _ ((hnets key _).mpr ⟨net, hnet, rfl, ne_nil_of_mem hleft⟩) node hleft
      rw [hcomponents, mem_erase_items] at hitem
      have hunique := (hclosed.nodes key net hnet node hnode).unique ⟨hitem.1, hnames⟩
        ⟨get?_eq_some_iff.mp hget, .inl hname⟩
      exact hitem.2 (congrArg fst hunique)
    · rw [← hcomponents, ← hboard] at hmem
      obtain ⟨net₁, hnet₁, hleft⟩ := (hkey net_id).mp (h.nets net_id hmem)
      rw [hnet] at hnet₁
      cases hnet₁
      exact hleft
    · rw [← hplaced] at hname
      exact hcomponents ▸ h.placement name hname
  · intro h
    refine ⟨fun key net' hnet' node hnode => ?_, fun net_id hmem => ?_, fun name hname => ?_⟩
    · obtain ⟨net, hnet, rfl, -⟩ := (hnets key net').mp hnet'
      obtain ⟨hmem, hother⟩ := mem_filter.mp hnode
      obtain ⟨item, ⟨hitem, hnames⟩, hunique⟩ := hclosed.nodes key net hnet node hmem
      rw [hcomponents]
      refine ⟨item, ⟨mem_erase_items.mpr ⟨hitem, fun hremoved => ?_⟩, hnames⟩,
        fun other hother => hunique other ⟨(mem_erase_items.mp hother.1).1, hother.2⟩⟩
      have hsame := eq_of_mem_items hget hitem hremoved
      apply of_decide_eq_true hother
      rcases hnames with hid | href
      · exact hid.trans (hremoved.trans (h.nodes key net hnet node hmem (hid.trans hremoved)))
      · exact hsame ▸ href
    · rw [hcomponents, hboard] at hmem
      have hold : net_id ∈ pinNets design.components ++ boardNets design := by
        rcases mem_append.mp hmem with hpin | hrest
        · apply mem_append_left
          obtain ⟨comp, hcomp, hpin⟩ := mem_flatMap.mp hpin
          obtain ⟨item, hitem, rfl⟩ := mem_map.mp hcomp
          exact mem_flatMap.mpr ⟨_, mem_map_of_mem (mem_erase_items.mp hitem).1, hpin⟩
        · exact mem_append_right _ hrest
      obtain ⟨net, hnet⟩ := mem_keys_iff.mp (hclosed.nets net_id hold)
      exact (hkey net_id).mpr ⟨net, hnet, h.nets net_id hmem net hnet⟩
    · rw [hplaced] at hname
      rw [hcomponents]
      obtain ⟨item, hitem, hnames⟩ := hclosed.placement name hname
      by_cases hremoved : item.1 = component_id
      · apply h.placement name hname
        rw [← hremoved, ← eq_of_mem_items hget hitem hremoved]
        exact hnames
      · exact ⟨item, mem_erase_items.mpr ⟨hitem, hremoved⟩, hnames⟩

end Removal

/-! ## Two designs -/

/-- An IC with a resistor on one of its pins; the name is what the net calls the IC. -/
def pulledUp (name : String) : Design where
  «meta» := { name := "pulled up" }
  components := (empty.set "u1" { id := "u1", ref := "U1", type := "IC" }).set "r1"
    { id := "r1", ref := "R1", type := "RES" }
  nets := empty.set "n1" { id := "n1", name := ⟨"SDA", by decide⟩, nodes := [⟨name, "1"⟩, ⟨"R1", "1"⟩] }

theorem closed_pulledUp {name : String} (h : name = "u1" ∨ name = "U1") : Closed (pulledUp name) where
  nodes key net hnet node hnode := by
    rw [get?_eq_some_iff] at hnet
    obtain ⟨rfl, rfl⟩ := mk.inj (mem_singleton.mp hnet)
    rcases mem_pair.mp hnode with rfl | rfl
    · refine ⟨_, ⟨mem_cons_self, h⟩, ?_⟩
      rintro item ⟨hitem, hnames⟩
      rcases mem_pair.mp hitem with rfl | rfl
      · rfl
      · rcases h with rfl | rfl <;> exact absurd hnames (by simp [Names])
    · refine ⟨_, ⟨mem_cons_of_mem _ mem_cons_self, .inr rfl⟩, ?_⟩
      rintro item ⟨hitem, hnames⟩
      rcases mem_pair.mp hitem with rfl | rfl
      · exact absurd hnames (by simp [Names])
      · rfl
  nets net_id hmem := nomatch hmem
  placement name hname := nomatch hname

/-- The design that is left when the IC is removed. -/
def afterRemoval (name : String) : Design :=
  { pulledUp name with
    components := (pulledUp name).components.erase "u1"
    nets := empty.set "n1"
      { id := "n1", name := ⟨"SDA", by decide⟩, nodes := [⟨name, "1"⟩, ⟨"R1", "1"⟩].filter fun node =>
        node.component_ref ≠ "U1" } }

theorem removes_pulledUp {name : String} (h : name = "u1" ∨ name = "U1") :
    Removes (pulledUp name) "u1" (afterRemoval name) := by
  left
  rcases h with rfl | rfl <;> rfl

theorem closed_afterRemoval : Closed (afterRemoval "U1") ∧ KeepsNodes (pulledUp "U1") (afterRemoval "U1") := by
  refine (removal_closed_iff rfl (removes_pulledUp (.inr rfl)) (closed_pulledUp (.inr rfl))).mpr ⟨?_, ?_, ?_⟩
  · intro key net hnet node hnode hname
    rw [get?_eq_some_iff] at hnet
    obtain ⟨rfl, rfl⟩ := mk.inj (mem_singleton.mp hnet)
    rcases mem_pair.mp hnode with rfl | rfl <;> exact absurd hname (by decide)
  · exact fun net_id hmem => nomatch hmem
  · exact fun name hname => nomatch hname

theorem not_closed_afterRemoval : ¬∀ design component_id component design',
    design.components.get? component_id = some component → Removes design component_id design' → Closed design →
      Closed design' ∧ KeepsNodes design design' := by
  intro h
  have hclosed := (h _ _ _ _ rfl (removes_pulledUp (.inl rfl)) (closed_pulledUp (.inl rfl))).1
  obtain ⟨item, ⟨hitem, hnames⟩, -⟩ := hclosed.nodes "n1" _ rfl ⟨"u1", "1"⟩
    (mem_filter.mpr ⟨mem_cons_self, rfl⟩)
  obtain rfl := mem_singleton.mp hitem
  exact absurd hnames (by simp [Names])

end ZapTrace.Schema
