import ZapTrace.Erc.Naming

/-!
# Queries by reference designator

The net of a pin, the nets of a component and the components on a net are found by reference
designators only. A renaming takes nodes away from these queries and gives none to them. Where the
identifier of a component is its reference designator, they find what they found before; where it is
not, a renaming may hide each node of the component.

## Main results

* `Renaming.getNetForPin_none`, `Renaming.getNetForPin_self`: the net of a pin after a renaming
* `Renaming.decouples_old`, `Renaming.decouples_self_iff`: decoupling after a renaming
* `getNetForPin_hideAll`, `getNetForPin_keepPin`: the net of a pin after the two renamings
-/

namespace ZapTrace.Models

open List

/-! ## The queries -/

section Queries

variable (design : Design)

def PinOn (component_ref pin_name : String) (net : Net) : Prop :=
  net ∈ design.nets.values ∧
    ∃ node ∈ net.nodes, node.component_ref = component_ref ∧ node.pin_name = pin_name

variable {design}

theorem getNetForPin_eq_none_iff {component_ref pin_name : String} :
    design.getNetForPin component_ref pin_name = none ↔ ∀ net, ¬ PinOn design component_ref pin_name net := by
  simp [Design.getNetForPin, PinOn]

theorem pinOn_of_getNetForPin {component_ref pin_name : String} {net : Net}
    (h : design.getNetForPin component_ref pin_name = some net) : PinOn design component_ref pin_name net := by
  refine ⟨mem_of_find?_eq_some h, ?_⟩
  simpa using find?_some h

theorem hasNodeOf_iff {net : Net} {component_ref : String} :
    net.hasNodeOf component_ref = true ↔ ∃ node ∈ net.nodes, node.component_ref = component_ref := by
  simp [Net.hasNodeOf]

def Decouples (design : Design) (power_net_id : String) (comp : Component) : Prop :=
  (∃ net, (power_net_id, net) ∈ design.nets.items ∧ net.hasNodeOf comp.ref = true) ∧
    ∃ net ∈ design.nets.values, net.hasNodeOf comp.ref = true ∧ net.id ≠ power_net_id ∧
      net.id ∈ groundNetIds design

theorem netOwnsDecoupling_iff {text : ErcText} {power_net_id : String} :
    netOwnsDecoupling text design power_net_id (groundNetIds design) = true ↔
      ∃ comp ∈ design.components.values, isCap text comp = true ∧ Decouples design power_net_id comp := by
  have hbridge : ∀ comp : Component,
      bridgesToGround design power_net_id (groundNetIds design) comp = true ↔
        ∃ net ∈ design.nets.values, net.hasNodeOf comp.ref = true ∧ net.id ≠ power_net_id ∧
          net.id ∈ groundNetIds design := by
    intro comp
    simp [bridgesToGround, componentNetIds]
  have hon : ∀ comp, comp ∈ design.getComponentsOnNet power_net_id ↔
      comp ∈ design.components.values ∧
        ∃ net, (power_net_id, net) ∈ design.nets.items ∧ net.hasNodeOf comp.ref = true := by
    intro comp
    unfold Design.getComponentsOnNet
    cases hget : design.nets.get? power_net_id with
    | none => simp [← Dict.get?_eq_some_iff, hget]
    | some net => simp [← Dict.get?_eq_some_iff, hget, hasNodeOf_iff]
  simp only [netOwnsDecoupling, any_eq_true, Bool.and_eq_true, hbridge, hon, Decouples]
  constructor
  · rintro ⟨comp, ⟨hcomp, hnet⟩, hcap, hground⟩
    exact ⟨comp, hcomp, hcap, hnet, hground⟩
  · rintro ⟨comp, hcomp, hcap, hnet, hground⟩
    exact ⟨comp, ⟨hcomp, hnet⟩, hcap, hground⟩

end Queries

/-! ## After a renaming -/

variable {design design' : Design}
variable {comp : Component}

theorem RenamedNet.hasNodeOf_old (hnamed : Named design) {net net' : Net} (h : RenamedNet design net net')
    (hcomp : comp ∈ design.components.values) (hnode : net'.hasNodeOf comp.ref = true) :
    net.hasNodeOf comp.ref = true := by
  obtain ⟨node', hnode', href⟩ := hasNodeOf_iff.mp hnode
  obtain ⟨node, hnode, hr⟩ := exists_of_forall₂_right h.nodes hnode'
  exact hasNodeOf_iff.mpr ⟨node, hnode, hr.component_ref_eq hnamed hcomp href⟩

theorem RenamedNet.hasNodeOf_self_iff (hnamed : Named design) {net net' : Net} (h : RenamedNet design net net')
    (hcomp : comp ∈ design.components.values) (hself : comp.id = comp.ref) :
    net'.hasNodeOf comp.ref = true ↔ net.hasNodeOf comp.ref = true := by
  refine ⟨h.hasNodeOf_old hnamed hcomp, fun hnode => ?_⟩
  obtain ⟨node, hnode, href⟩ := hasNodeOf_iff.mp hnode
  obtain ⟨node', hnode', hr⟩ := exists_of_forall₂_left h.nodes hnode
  exact hasNodeOf_iff.mpr ⟨node', hnode', (hr.component_ref_iff hnamed hcomp hself).mpr href⟩

theorem map_find?_eq {α β γ : Type} {R : α → β → Prop} {p : α → Bool} {q : β → Bool} {f : α → γ}
    {g : β → γ} {xs : List α} {ys : List β} (h : List.Forall₂ R xs ys)
    (hpq : ∀ x y, R x y → (p x = true ↔ q y = true)) (hfg : ∀ x y, R x y → f x = g y) :
    (xs.find? p).map f = (ys.find? q).map g := by
  induction h with
  | nil => rfl
  | @cons x y xs ys hr _ ih =>
    by_cases hp : p x = true
    · rw [find?_cons_of_pos hp, find?_cons_of_pos ((hpq x y hr).mp hp)]
      exact congrArg some (hfg x y hr)
    · rw [find?_cons_of_neg hp, find?_cons_of_neg fun hq => hp ((hpq x y hr).mpr hq)]
      exact ih

namespace Renaming

variable (h : Renaming design design') (hnamed : Named design)
include h hnamed
variable {comp : Component}

theorem pinOn_old (hcomp : comp ∈ design.components.values) {pin_name : String} {net' : Net}
    (hpin : PinOn design' comp.ref pin_name net') :
    ∃ net, PinOn design comp.ref pin_name net ∧ net'.id = net.id ∧ net'.type = net.type := by
  obtain ⟨hnet', node', hnode', href, hname⟩ := hpin
  obtain ⟨net, hnet, hrenamed⟩ := exists_of_forall₂_right h.values hnet'
  obtain ⟨node, hnode, hr⟩ := exists_of_forall₂_right hrenamed.nodes hnode'
  exact ⟨net, ⟨hnet, node, hnode, hr.component_ref_eq hnamed hcomp href, hr.pin_name_eq ▸ hname⟩,
    hrenamed.id, hrenamed.type⟩

theorem getNetForPin_none (hcomp : comp ∈ design.components.values) {pin_name : String}
    (hnone : design.getNetForPin comp.ref pin_name = none) : design'.getNetForPin comp.ref pin_name = none := by
  rw [getNetForPin_eq_none_iff] at hnone ⊢
  intro net' hpin
  obtain ⟨net, hnet, -⟩ := h.pinOn_old hnamed hcomp hpin
  exact hnone net hnet

/-- The net of a pin stays where the identifier of the component is its reference designator. -/
theorem getNetForPin_self (hcomp : comp ∈ design.components.values) (hself : comp.id = comp.ref) (pin_name : String) :
    (design'.getNetForPin comp.ref pin_name).map (fun net => (net.id, net.type)) =
      (design.getNetForPin comp.ref pin_name).map fun net => (net.id, net.type) := by
  symm
  apply map_find?_eq h.values
  · intro net net' hrenamed
    simp only [any_eq_true, decide_eq_true_eq]
    constructor
    · rintro ⟨node, hnode, href, hname⟩
      obtain ⟨node', hnode', hr⟩ := exists_of_forall₂_left hrenamed.nodes hnode
      exact ⟨node', hnode', (hr.component_ref_iff hnamed hcomp hself).mpr href, hr.pin_name_eq.trans hname⟩
    · rintro ⟨node', hnode', href, hname⟩
      obtain ⟨node, hnode, hr⟩ := exists_of_forall₂_right hrenamed.nodes hnode'
      exact ⟨node, hnode, (hr.component_ref_iff hnamed hcomp hself).mp href, hr.pin_name_eq ▸ hname⟩
  · intro net net' hrenamed
    rw [hrenamed.id, hrenamed.type]

omit hnamed in
theorem groundNetIds_eq : groundNetIds design' = groundNetIds design := by
  unfold groundNetIds
  have hnets := h.nets
  generalize design.nets.items = items at hnets ⊢
  generalize design'.nets.items = items' at hnets ⊢
  induction hnets with
  | nil => rfl
  | @cons item item' items items' hr _ ih =>
    obtain ⟨hkey, hrenamed⟩ := hr
    simp only [filter_cons, hrenamed.type]
    split
    · rw [map_cons, map_cons, ih, hkey]
    · exact ih

theorem decouples_old {power_net_id : String} (hcomp : comp ∈ design.components.values)
    (hd : Decouples design' power_net_id comp) : Decouples design power_net_id comp := by
  obtain ⟨⟨net', hnet', hon⟩, ground', hground', hon', hne, hmem⟩ := hd
  obtain ⟨net, hnet, hrenamed⟩ := h.exists_old hnet'
  obtain ⟨ground, hground, hrenamed'⟩ := exists_of_forall₂_right h.values hground'
  refine ⟨⟨net, hnet, hrenamed.hasNodeOf_old hnamed hcomp hon⟩, ground, hground,
    hrenamed'.hasNodeOf_old hnamed hcomp hon', ?_, ?_⟩
  · rw [← hrenamed'.id]
    exact hne
  · rw [← hrenamed'.id, ← h.groundNetIds_eq]
    exact hmem

theorem decouples_self_iff {power_net_id : String} (hcomp : comp ∈ design.components.values)
    (hself : comp.id = comp.ref) : Decouples design' power_net_id comp ↔ Decouples design power_net_id comp := by
  refine ⟨h.decouples_old hnamed hcomp, ?_⟩
  rintro ⟨⟨net, hnet, hon⟩, ground, hground, hon', hne, hmem⟩
  obtain ⟨net', hnet', hrenamed⟩ := h.exists_new hnet
  obtain ⟨ground', hground', hrenamed'⟩ := exists_of_forall₂_left h.values hground
  refine ⟨⟨net', hnet', (hrenamed.hasNodeOf_self_iff hnamed hcomp hself).mpr hon⟩, ground', hground',
    (hrenamed'.hasNodeOf_self_iff hnamed hcomp hself).mpr hon', ?_, ?_⟩
  · rw [hrenamed'.id]
    exact hne
  · rw [hrenamed'.id, h.groundNetIds_eq]
    exact hmem

end Renaming

/-! ## Hidden nodes -/

/-- The identifier of the component is not its reference designator. -/
def Movable (comp : Component) : Prop := comp.id ≠ comp.ref

/-- All nodes are renamed. -/
def hideAll (design : Design) : Design := renameNodes design fun _ _ => true

/-- All nodes are renamed but those of one pin on one net. -/
def keepPin (design : Design) (key component_ref pin_name : String) : Design :=
  renameNodes design fun k node =>
    !(k = key ∧ node.component_ref = component_ref ∧ node.pin_name = pin_name)
variable {net' : Net}

theorem mem_items_renameNodes {selected : String → NetNode → Bool} {key : String} :
    (key, net') ∈ (renameNodes design selected).nets.items ↔ ∃ net, (key, net) ∈ design.nets.items ∧
      net' = renameNet design (selected key) net := by
  simp only [renameNodes, mem_map, Prod.mk.injEq]
  constructor
  · rintro ⟨⟨key, net⟩, hnet, rfl, rfl⟩
    exact ⟨net, hnet, rfl⟩
  · rintro ⟨net, hnet, rfl⟩
    exact ⟨(key, net), hnet, rfl, rfl⟩

theorem renameNode_component_ref_ne (hnamed : Named design) (hcomp : comp ∈ design.components.values)
    (hmovable : Movable comp) (node : NetNode) : (renameNode design node).component_ref ≠ comp.ref := by
  intro href
  have hnode : node.component_ref = comp.ref :=
    (renamedNode_renameNode design node).component_ref_eq hnamed hcomp href
  unfold renameNode at href
  cases hfind : design.components.values.find? fun comp => comp.ref = node.component_ref with
  | none =>
    have := find?_eq_none.mp hfind comp hcomp
    simp [hnode] at this
  | some other =>
    rw [hfind] at href
    obtain rfl := hnamed.id_ne_ref other (mem_of_find?_eq_some hfind) comp hcomp href
    exact hmovable href

theorem mem_nodes_renameNodes (hnamed : Named design) {selected : String → NetNode → Bool} {key : String}
    (hnet' : (key, net') ∈ (renameNodes design selected).nets.items) (hcomp : comp ∈ design.components.values)
    (hmovable : Movable comp) {node : NetNode} (hnode : node ∈ net'.nodes) (href : node.component_ref = comp.ref) :
    selected key node = false := by
  obtain ⟨net, hnet, rfl⟩ := mem_items_renameNodes.mp hnet'
  obtain ⟨old, hold, hold'⟩ := mem_map.mp hnode
  cases hsel : selected key old with
  | true =>
    rw [if_pos hsel] at hold'
    rw [← hold'] at href
    exact absurd href (renameNode_component_ref_ne hnamed hcomp hmovable old)
  | false =>
    rw [if_neg (by simp [hsel])] at hold'
    rw [← hold', hsel]

theorem hasNodeOf_hideAll (hnamed : Named design) {key : String} (hnet' : (key, net') ∈ (hideAll design).nets.items)
    (hcomp : comp ∈ design.components.values) (hmovable : Movable comp) : net'.hasNodeOf comp.ref = false := by
  rw [Bool.eq_false_iff]
  intro hnode
  obtain ⟨node, hnode, href⟩ := hasNodeOf_iff.mp hnode
  cases mem_nodes_renameNodes hnamed hnet' hcomp hmovable hnode href

/-- When all nodes are renamed, the pins of a movable component have no net. -/
theorem getNetForPin_hideAll (hnamed : Named design) (hcomp : comp ∈ design.components.values) (hmovable : Movable comp)
    (pin_name : String) : (hideAll design).getNetForPin comp.ref pin_name = none := by
  rw [getNetForPin_eq_none_iff]
  rintro net' ⟨hnet', node, hnode, href, -⟩
  obtain ⟨⟨key, net'⟩, hitem, rfl⟩ := mem_map.mp hnet'
  have := hasNodeOf_hideAll hnamed hitem hcomp hmovable
  rw [Bool.eq_false_iff] at this
  exact this (hasNodeOf_iff.mpr ⟨node, hnode, href⟩)

theorem kept_of_keepPin (hnamed : Named design) {comp other : Component} (hcomp : comp ∈ design.components.values)
    (hother : other ∈ design.components.values) (hmovable : Movable other) {key k pin_name : String}
    (hnet' : (k, net') ∈ (keepPin design key comp.ref pin_name).nets.items) {node : NetNode} (hnode : node ∈ net'.nodes)
    (href : node.component_ref = other.ref) : other = comp ∧ k = key ∧ node.pin_name = pin_name := by
  have hkept := mem_nodes_renameNodes hnamed hnet' hother hmovable hnode href
  simp only [Bool.not_eq_false', decide_eq_true_eq] at hkept
  obtain ⟨hk, hcompref, hpin⟩ := hkept
  exact ⟨hnamed.ref_unique other hother comp hcomp (href.symm.trans hcompref), hk, hpin⟩

/-- The pin that is kept has its net, and no other pin of the component has one. -/
theorem getNetForPin_keepPin (hnamed : Named design) (hcomp : comp ∈ design.components.values) (hmovable : Movable comp)
    {key pin_name : String} {net : Net} (hnet : (key, net) ∈ design.nets.items)
    (hpin : ∃ node ∈ net.nodes, node.component_ref = comp.ref ∧ node.pin_name = pin_name) :
    (∃ net', (keepPin design key comp.ref pin_name).getNetForPin comp.ref pin_name = some net' ∧
      net'.id = net.id ∧ net'.type = net.type) ∧
    ∀ q net', (keepPin design key comp.ref pin_name).getNetForPin comp.ref q = some net' → q = pin_name := by
  constructor
  · cases hget : (keepPin design key comp.ref pin_name).getNetForPin comp.ref pin_name with
    | none =>
      -- the node of the pin is kept
      obtain ⟨node, hnode, href, hname⟩ := hpin
      rw [getNetForPin_eq_none_iff] at hget
      refine absurd ⟨mem_map.mpr ⟨_, mem_items_renameNodes.mpr ⟨net, hnet, rfl⟩, rfl⟩, node, ?_, href,
        hname⟩ (hget _)
      refine mem_map.mpr ⟨node, hnode, ?_⟩
      simp [href, hname]
    | some net' =>
      refine ⟨net', rfl, ?_⟩
      obtain ⟨hmem, node, hnode, href, -⟩ := pinOn_of_getNetForPin hget
      obtain ⟨⟨k, net'⟩, hitem, rfl⟩ := mem_map.mp hmem
      obtain ⟨-, rfl, -⟩ := kept_of_keepPin hnamed hcomp hcomp hmovable hitem hnode href
      obtain ⟨net₁, hnet₁, rfl⟩ := mem_items_renameNodes.mp hitem
      have heq : net₁ = net :=
        Option.some.inj ((Dict.get?_eq_some_iff.mpr hnet₁).symm.trans (Dict.get?_eq_some_iff.mpr hnet))
      rw [heq]
      exact ⟨rfl, rfl⟩
  · intro q net' hget
    obtain ⟨hmem, node, hnode, href, hq⟩ := pinOn_of_getNetForPin hget
    obtain ⟨⟨k, net'⟩, hitem, rfl⟩ := mem_map.mp hmem
    obtain ⟨-, -, hname⟩ := kept_of_keepPin hnamed hcomp hcomp hmovable hitem hnode href
    exact hq.symm.trans hname

end ZapTrace.Models
