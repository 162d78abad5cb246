import Mathlib.Data.Finset.Basic
import Mathlib.Data.Finset.Lattice.Basic
import ZapTrace.Core.Models

/-!
# The electrical graph

A view of a design for topology questions: the endpoints on each net, from the nodes of the net and from
the pins that name it, and the nets of each component, under its reference designator and under its
identifier. Endpoints stand in the order in which they are added; their pin types are left out.

## Main results

* `mem_endpoints_iff`, `mem_netsForComponent_iff`: what the graph holds
* `hasResistorToPower_iff`: a resistor bridges a net to a rail exactly when the components that the
  nodes name have one
-/

namespace ZapTrace.Models

open List

structure PinEndpoint where
  component_ref : String
  pin_name : String
  net_id : String
  deriving DecidableEq

structure ElectricalGraph where
  design : Design
  net_nodes : Dict String (List PinEndpoint)
  component_nets : Dict String (Finset String)

namespace ElectricalGraph

/-- The names of the components: first the reference designators, then the identifiers. -/
def names (design : Design) : List String :=
  design.components.values.map Component.ref ++ design.components.values.map Component.id

/-- The graph before its nodes are added. -/
def empty (design : Design) : ElectricalGraph where
  design := design
  net_nodes := design.nets.keys.foldl (fun d net_id => d.set net_id []) Dict.empty
  component_nets := (names design).foldl (fun d name => d.set name ∅) Dict.empty

variable (g : ElectricalGraph)

def endpoints (net_id : String) : List PinEndpoint := (g.net_nodes.get? net_id).getD []

def netsForComponent (component_ref : String) : Finset String :=
  (g.component_nets.get? component_ref).getD ∅

def addEndpoint (net_id : String) (node : NetNode) : ElectricalGraph :=
  let endpoint : PinEndpoint := ⟨node.component_ref, node.pin_name, net_id⟩
  let net_nodes :=
    if endpoint ∈ g.endpoints net_id then g.net_nodes
    else g.net_nodes.set net_id (g.endpoints net_id ++ [endpoint])
  match g.design.getComponent node.component_ref with
  | none => { g with net_nodes := net_nodes }
  | some comp =>
    let component_nets := g.component_nets.set comp.ref (insert net_id (g.netsForComponent comp.ref))
    { g with
      net_nodes := net_nodes
      component_nets := component_nets.set comp.id
        (insert net_id ((component_nets.get? comp.id).getD ∅)) }

end ElectricalGraph

/-- The nodes of the nets. -/
def nodeAdditions (design : Design) : List (String × NetNode) :=
  design.nets.items.flatMap fun item => item.2.nodes.map fun node => (item.1, node)

/-- The pins that name a net themselves. -/
def pinAdditions (design : Design) : List (String × NetNode) :=
  design.components.values.flatMap fun comp => comp.pins.items.filterMap fun item =>
    item.2.net.bind fun net_id =>
      if net_id ≠ "" ∧ net_id ∈ design.nets.keys then some (net_id, ⟨comp.ref, item.1⟩) else none

/-- What the graph of a design is built from. -/
def additions (design : Design) : List (String × NetNode) := nodeAdditions design ++ pinAdditions design

namespace ElectricalGraph

/-- `_build` -/
def fromDesign (design : Design) : ElectricalGraph :=
  (additions design).foldl (fun g addition => g.addEndpoint addition.1 addition.2) (empty design)

variable (g : ElectricalGraph)

def isPowerNet (net_id : String) : Bool :=
  match g.design.nets.get? net_id with
  | some net => net.type = .power ∨ net.type = .ground
  | none => false

def resistorTypes : List String := ["RES", "R", "RESISTOR"]

/-- Some resistor on the net, of an allowed value where these are given, is on a power or ground net
too. `upper` is `str.upper`. -/
def hasResistorToPower (upper : String → String) (signal_net_id : String)
    (allowed_values : Option (List String)) : Bool :=
  (g.endpoints signal_net_id).any fun endpoint =>
    match g.design.getComponent endpoint.component_ref with
    | none => false
    | some comp =>
      upper comp.type ∈ resistorTypes ∧
        (∀ allowed ∈ allowed_values, ∃ value ∈ comp.value, value ∈ allowed) ∧
        ∃ net_id ∈ (g.netsForComponent comp.ref ∪ g.netsForComponent comp.id).erase signal_net_id,
          g.isPowerNet net_id

end ElectricalGraph

/-! ## What the graph holds -/

open ElectricalGraph

variable (design : Design)

/-- The graph after some of the nodes. -/
def graphOf (as : List (String × NetNode)) : ElectricalGraph :=
  as.foldl (fun g addition => g.addEndpoint addition.1 addition.2) (empty design)

theorem graphOf_concat (as : List (String × NetNode)) (a : String × NetNode) :
    graphOf design (as ++ [a]) = (graphOf design as).addEndpoint a.1 a.2 := by
  simp [graphOf]

theorem addEndpoint_design (g : ElectricalGraph) (net_id : String) (node : NetNode) :
    (g.addEndpoint net_id node).design = g.design := by
  unfold addEndpoint
  cases g.design.getComponent node.component_ref <;> rfl

theorem graphOf_design (as : List (String × NetNode)) : (graphOf design as).design = design := by
  induction as using reverseRecOn with
  | nil => rfl
  | append_singleton as a ih => rw [graphOf_concat, addEndpoint_design, ih]

theorem mem_endpoints_addEndpoint {g : ElectricalGraph} {net_id n : String} {node : NetNode}
    {ep : PinEndpoint} : ep ∈ (g.addEndpoint net_id node).endpoints n ↔
      ep ∈ g.endpoints n ∨ n = net_id ∧ ep = ⟨node.component_ref, node.pin_name, net_id⟩ := by
  have hnodes : (g.addEndpoint net_id node).net_nodes =
      if (⟨node.component_ref, node.pin_name, net_id⟩ : PinEndpoint) ∈ g.endpoints net_id then g.net_nodes
      else g.net_nodes.set net_id
        (g.endpoints net_id ++ [⟨node.component_ref, node.pin_name, net_id⟩]) := by
    unfold addEndpoint
    cases g.design.getComponent node.component_ref <;> rfl
  rw [endpoints, hnodes]
  split
  · rename_i hold
    refine ⟨.inl, ?_⟩
    rintro (h | ⟨rfl, rfl⟩)
    · exact h
    · exact hold
  · rw [Dict.get?_set]
    by_cases hn : n = net_id
    · subst hn
      simp
    · simp [hn, endpoints]

theorem mem_netsForComponent_addEndpoint {g : ElectricalGraph} {net_id n name : String} {node : NetNode} :
    n ∈ (g.addEndpoint net_id node).netsForComponent name ↔
      n ∈ g.netsForComponent name ∨ n = net_id ∧ ∃ comp,
        g.design.getComponent node.component_ref = some comp ∧ (name = comp.ref ∨ name = comp.id) := by
  unfold addEndpoint
  cases hcomp : g.design.getComponent node.component_ref with
  | none => simp [netsForComponent]
  | some comp =>
    simp only [netsForComponent, Dict.get?_set, Option.some.injEq, exists_eq_left']
    by_cases hid : name = comp.id <;> by_cases href : name = comp.ref <;>
      by_cases hself : comp.id = comp.ref <;> simp_all <;> tauto

theorem mem_endpoints_graphOf {as : List (String × NetNode)} {n : String} {ep : PinEndpoint} :
    ep ∈ (graphOf design as).endpoints n ↔
      ∃ node, (n, node) ∈ as ∧ ep = ⟨node.component_ref, node.pin_name, n⟩ := by
  induction as using reverseRecOn with
  | nil =>
    have hnil : (graphOf design []).endpoints n = [] := by
      unfold endpoints
      cases hget : (graphOf design []).net_nodes.get? n with
      | none => rfl
      | some l => exact Dict.eq_of_get?_foldl_set hget
    simp [hnil]
  | append_singleton as a ih =>
    rw [graphOf_concat, mem_endpoints_addEndpoint, ih]
    constructor
    · rintro (⟨node, hnode, rfl⟩ | ⟨rfl, rfl⟩)
      · exact ⟨node, mem_append_left _ hnode, rfl⟩
      · exact ⟨a.2, mem_append_right _ (mem_singleton_self _), rfl⟩
    · rintro ⟨node, hnode, rfl⟩
      rcases mem_append.mp hnode with hnode | hnode
      · exact .inl ⟨node, hnode, rfl⟩
      · rw [mem_singleton] at hnode
        exact .inr (by rw [← hnode]; exact ⟨rfl, rfl⟩)

theorem mem_netsForComponent_graphOf {as : List (String × NetNode)} {n name : String} :
    n ∈ (graphOf design as).netsForComponent name ↔ ∃ node comp, (n, node) ∈ as ∧
      design.getComponent node.component_ref = some comp ∧ (name = comp.ref ∨ name = comp.id) := by
  induction as using reverseRecOn with
  | nil =>
    have hnil : (graphOf design []).netsForComponent name = ∅ := by
      unfold netsForComponent
      cases hget : (graphOf design []).component_nets.get? name with
      | none => rfl
      | some l => exact Dict.eq_of_get?_foldl_set hget
    simp [hnil]
  | append_singleton as a ih =>
    rw [graphOf_concat, mem_netsForComponent_addEndpoint, ih, graphOf_design]
    constructor
    · rintro (⟨node, comp, hnode, hcomp⟩ | ⟨rfl, comp, hcomp⟩)
      · exact ⟨node, comp, mem_append_left _ hnode, hcomp⟩
      · exact ⟨a.2, comp, mem_append_right _ (mem_singleton_self _), hcomp⟩
    · rintro ⟨node, comp, hnode, hcomp⟩
      rcases mem_append.mp hnode with hnode | hnode
      · exact .inl ⟨node, comp, hnode, hcomp⟩
      · rw [mem_singleton] at hnode
        subst hnode
        exact .inr ⟨rfl, comp, hcomp⟩

/-! ## Resistors -/

/-- Some node on the net resolves to the component. -/
def OnNet (net_id : String) (comp : Component) : Prop :=
  ∃ node, (net_id, node) ∈ additions design ∧ design.getComponent node.component_ref = some comp

theorem fromDesign_design : (fromDesign design).design = design := graphOf_design design _

/-- **Resistors to a rail**, in terms of the components on the nets. -/
theorem hasResistorToPower_iff (upper : String → String) (signal_net_id : String)
    (allowed_values : Option (List String)) :
    (fromDesign design).hasResistorToPower upper signal_net_id allowed_values = true ↔
      ∃ comp, OnNet design signal_net_id comp ∧ upper comp.type ∈ resistorTypes ∧
        (∀ allowed ∈ allowed_values, ∃ value ∈ comp.value, value ∈ allowed) ∧
        ∃ net_id other, net_id ≠ signal_net_id ∧ OnNet design net_id other ∧
          (comp.ref = other.ref ∨ comp.ref = other.id ∨ comp.id = other.ref ∨ comp.id = other.id) ∧
          (fromDesign design).isPowerNet net_id = true := by
  have hnets : ∀ n name, n ∈ (fromDesign design).netsForComponent name ↔ ∃ other, OnNet design n other ∧
      (name = other.ref ∨ name = other.id) := by
    intro n name
    rw [fromDesign, ← graphOf, mem_netsForComponent_graphOf]
    constructor
    · rintro ⟨node, other, hnode, hcomp, hname⟩
      exact ⟨other, ⟨node, hnode, hcomp⟩, hname⟩
    · rintro ⟨other, ⟨node, hnode, hcomp⟩, hname⟩
      exact ⟨node, other, hnode, hcomp, hname⟩
  have hends : ∀ ep, ep ∈ (fromDesign design).endpoints signal_net_id ↔ ∃ node,
      (signal_net_id, node) ∈ additions design ∧
        ep = ⟨node.component_ref, node.pin_name, signal_net_id⟩ := by
    intro ep
    rw [fromDesign, ← graphOf, mem_endpoints_graphOf]
  unfold hasResistorToPower
  rw [any_eq_true]
  constructor
  · rintro ⟨ep, hep, hany⟩
    obtain ⟨node, hnode, rfl⟩ := (hends ep).mp hep
    rw [fromDesign_design] at hany
    cases hcomp : design.getComponent node.component_ref with
    | none => simp [hcomp] at hany
    | some comp =>
      simp only [hcomp, decide_eq_true_eq, Finset.mem_erase, Finset.mem_union, hnets] at hany
      obtain ⟨htype, hvalue, net_id, ⟨hne, hother⟩, hpower⟩ := hany
      refine ⟨comp, ⟨node, hnode, hcomp⟩, htype, hvalue, ?_⟩
      rcases hother with ⟨other, hother, hname⟩ | ⟨other, hother, hname⟩
      · exact ⟨net_id, other, hne, hother, by tauto, hpower⟩
      · exact ⟨net_id, other, hne, hother, by tauto, hpower⟩
  · rintro ⟨comp, ⟨node, hnode, hcomp⟩, htype, hvalue, net_id, other, hne, hother, hname, hpower⟩
    refine ⟨⟨node.component_ref, node.pin_name, signal_net_id⟩, (hends _).mpr ⟨node, hnode, rfl⟩, ?_⟩
    rw [fromDesign_design]
    simp only [hcomp, decide_eq_true_eq, Finset.mem_erase, Finset.mem_union, hnets]
    refine ⟨htype, hvalue, net_id, ⟨hne, ?_⟩, hpower⟩
    rcases hname with hname | hname | hname | hname
    · exact .inl ⟨other, hother, .inl hname⟩
    · exact .inl ⟨other, hother, .inr hname⟩
    · exact .inr ⟨other, hother, .inl hname⟩
    · exact .inr ⟨other, hother, .inr hname⟩

end ZapTrace.Models
