import Mathlib.Data.List.Forall2
import ZapTrace.Erc.Rules

/-!
# Nodes that name their component by its identifier

A node may name its component by the reference designator or by the identifier. A renaming of a design
turns the first into the second in some of its nodes. A node resolves to the same component afterwards,
but it does not name it by its reference designator any more.

## Main results

* `Renaming.getComponent_eq`, `Renaming.component_ref_eq`: what a renamed node resolves to, and which
  reference designators it may still be found by
* `Renaming.onNet_iff`, `Renaming.hasResistorToPower_eq`: the electrical graph does not see a renaming
* `renaming_renameNodes`: the renaming by a condition is one
-/

namespace ZapTrace.Models

open ElectricalGraph List Dict

/-- Components and nets stand under their identifiers, as the parser builds them, and no component has the
reference designator of another as its reference designator or identifier. -/
structure Named (design : Design) : Prop where
  component_key : ∀ key comp, (key, comp) ∈ design.components.items → comp.id = key
  /-- The message of `_erc003_violation` looks nets up by their identifiers. -/
  net_key : ∀ key net, (key, net) ∈ design.nets.items → net.id = key
  ref_unique : ∀ comp ∈ design.components.values, ∀ other ∈ design.components.values,
    comp.ref = other.ref → comp = other
  id_ne_ref : ∀ comp ∈ design.components.values, ∀ other ∈ design.components.values,
    comp.id = other.ref → comp = other

/-- The node is the same, or names its component by the identifier now. -/
def RenamedNode (design : Design) (node node' : NetNode) : Prop :=
  node' = node ∨ ∃ comp ∈ design.components.values,
    node.component_ref = comp.ref ∧ node' = { node with component_ref := comp.id }

/-- The net is the same up to names in its nodes. -/
structure RenamedNet (design : Design) (net net' : Net) : Prop where
  id : net'.id = net.id
  name : net'.name = net.name
  type : net'.type = net.type
  nodes : List.Forall₂ (RenamedNode design) net.nodes net'.nodes

/-- Some nodes of the design name their component by its identifier now. -/
structure Renaming (design design' : Design) : Prop where
  components : design'.components = design.components
  board : design'.board = design.board
  nets : List.Forall₂ (fun item item' => item'.1 = item.1 ∧ RenamedNet design item.2 item'.2)
    design.nets.items design'.nets.items

theorem Renaming.refl (design : Design) : Renaming design design := by
  refine ⟨rfl, rfl, forall₂_same.mpr fun item _ => ⟨rfl, rfl, rfl, rfl, ?_⟩⟩
  exact forall₂_same.mpr fun node _ => .inl rfl

/-! ## Lists that correspond -/

section Forall2

variable {α β : Type} {R : α → β → Prop} {xs : List α} {ys : List β}

theorem exists_of_forall₂_left (h : List.Forall₂ R xs ys) {x : α} (hx : x ∈ xs) : ∃ y ∈ ys, R x y := by
  induction h with
  | nil => cases hx
  | cons hr _ ih =>
    rcases mem_cons.mp hx with rfl | hx
    · exact ⟨_, mem_cons_self, hr⟩
    · obtain ⟨y, hy, hr⟩ := ih hx
      exact ⟨y, mem_cons_of_mem _ hy, hr⟩

theorem exists_of_forall₂_right (h : List.Forall₂ R xs ys) {y : β} (hy : y ∈ ys) : ∃ x ∈ xs, R x y :=
  exists_of_forall₂_left h.flip hy

end Forall2

/-! ## Components -/

variable {design design' : Design}

theorem Named.mem_values_iff (h : Named design) {comp : Component} :
    comp ∈ design.components.values ↔ design.components.get? comp.id = some comp := by
  rw [get?_eq_some_iff]
  constructor
  · intro hcomp
    obtain ⟨⟨key, comp'⟩, hitem, rfl⟩ := mem_map.mp hcomp
    rw [h.component_key key comp' hitem]
    exact hitem
  · exact fun hitem => mem_map.mpr ⟨_, hitem, rfl⟩

theorem Named.getComponent_id (h : Named design) {comp : Component}
    (hcomp : comp ∈ design.components.values) : design.getComponent comp.id = some comp := by
  rw [Design.getComponent, h.mem_values_iff.mp hcomp]

theorem Named.getComponent_ref (h : Named design) {comp : Component}
    (hcomp : comp ∈ design.components.values) : design.getComponent comp.ref = some comp := by
  unfold Design.getComponent
  cases hget : design.components.get? comp.ref with
  | some other =>
    have hid := h.component_key _ other (get?_eq_some_iff.mp hget)
    exact congrArg some (h.id_ne_ref other (mem_values_of_get? hget) comp hcomp hid)
  | none =>
    simp only
    cases hfind : design.components.values.find? fun candidate => candidate.ref = comp.ref with
    | none =>
      have := find?_eq_none.mp hfind comp hcomp
      simp at this
    | some other =>
      have href : other.ref = comp.ref := by simpa using find?_some hfind
      exact congrArg some (h.ref_unique other (mem_of_find?_eq_some hfind) comp hcomp href)

namespace RenamedNode

variable {node node' : NetNode}

theorem pin_name_eq (h : RenamedNode design node node') : node'.pin_name = node.pin_name := by
  rcases h with rfl | ⟨comp, -, -, rfl⟩ <;> rfl

theorem getComponent_eq (hnamed : Named design) (h : RenamedNode design node node') :
    design.getComponent node'.component_ref = design.getComponent node.component_ref := by
  rcases h with rfl | ⟨comp, hcomp, href, rfl⟩
  · rfl
  · rw [hnamed.getComponent_id hcomp, href, hnamed.getComponent_ref hcomp]

/-- What a renamed node still names by a reference designator, it named so before. -/
theorem component_ref_eq (hnamed : Named design) (h : RenamedNode design node node') {comp : Component}
    (hcomp : comp ∈ design.components.values) (href : node'.component_ref = comp.ref) :
    node.component_ref = comp.ref := by
  rcases h with rfl | ⟨other, hother, hnode, rfl⟩
  · exact href
  · rw [hnode, hnamed.id_ne_ref other hother comp hcomp href]

theorem component_ref_iff (hnamed : Named design) (h : RenamedNode design node node') {comp : Component}
    (hcomp : comp ∈ design.components.values) (hself : comp.id = comp.ref) :
    node'.component_ref = comp.ref ↔ node.component_ref = comp.ref := by
  refine ⟨h.component_ref_eq hnamed hcomp, fun href => ?_⟩
  rcases h with rfl | ⟨other, hother, hnode, rfl⟩
  · exact href
  · obtain rfl := hnamed.ref_unique other hother comp hcomp (hnode.symm.trans href)
    exact hself

end RenamedNode

/-! ## Nets -/

namespace Renaming

variable (h : Renaming design design')
include h

theorem exists_old {key : String} {net' : Net} (hnet : (key, net') ∈ design'.nets.items) :
    ∃ net, (key, net) ∈ design.nets.items ∧ RenamedNet design net net' := by
  obtain ⟨⟨key', net⟩, hitem, rfl, hrenamed⟩ := exists_of_forall₂_right h.nets hnet
  exact ⟨net, hitem, hrenamed⟩

theorem exists_new {key : String} {net : Net} (hnet : (key, net) ∈ design.nets.items) :
    ∃ net', (key, net') ∈ design'.nets.items ∧ RenamedNet design net net' := by
  obtain ⟨⟨key', net'⟩, hitem, rfl, hrenamed⟩ := exists_of_forall₂_left h.nets hnet
  exact ⟨net', hitem, hrenamed⟩

theorem values : List.Forall₂ (RenamedNet design) design.nets.values design'.nets.values := by
  unfold Dict.values
  rw [forall₂_map_left_iff, forall₂_map_right_iff]
  exact h.nets.imp fun _ _ hr => hr.2

theorem keys_eq : design'.nets.keys = design.nets.keys := by
  unfold Dict.keys
  have hkeys := h.nets
  generalize design.nets.items = items at hkeys ⊢
  generalize design'.nets.items = items' at hkeys ⊢
  induction hkeys with
  | nil => rfl
  | cons hr _ ih => rw [map_cons, map_cons, ih, hr.1]

theorem isPowerNet_eq (net_id : String) :
    (fromDesign design').isPowerNet net_id =
      (fromDesign design).isPowerNet net_id := by
  unfold isPowerNet
  rw [fromDesign_design, fromDesign_design]
  cases hget : design.nets.get? net_id with
  | none =>
    have hnone : design'.nets.get? net_id = none := by
      rw [← not_mem_keys_iff, h.keys_eq, not_mem_keys_iff]
      exact hget
    rw [hnone]
  | some net =>
    obtain ⟨net', hnet', hrenamed⟩ := h.exists_new (get?_eq_some_iff.mp hget)
    rw [get?_eq_some_iff.mpr hnet']
    simp only [hrenamed.type]

theorem getComponent_eq : design'.getComponent = design.getComponent := by
  funext component_ref
  rw [Design.getComponent, h.components, Design.getComponent]

theorem pinAdditions_eq : pinAdditions design' = pinAdditions design := by
  rw [pinAdditions, h.components, h.keys_eq, pinAdditions]

/-- **The graph** has the same components on the same nets. -/
theorem onNet_iff (hnamed : Named design) (net_id : String) (comp : Component) :
    OnNet design' net_id comp ↔ OnNet design net_id comp := by
  unfold OnNet additions
  rw [h.pinAdditions_eq, h.getComponent_eq]
  simp only [mem_append, nodeAdditions, mem_flatMap, mem_map, Prod.mk.injEq]
  constructor
  · rintro ⟨node', ⟨⟨key, net'⟩, hnet', node, hnode, rfl, rfl⟩ | hpin, hcomp⟩
    · obtain ⟨net, hnet, hrenamed⟩ := h.exists_old hnet'
      obtain ⟨old, hold, hr⟩ := exists_of_forall₂_right hrenamed.nodes hnode
      exact ⟨old, .inl ⟨_, hnet, old, hold, rfl, rfl⟩, (hr.getComponent_eq hnamed).symm.trans hcomp⟩
    · exact ⟨node', .inr hpin, hcomp⟩
  · rintro ⟨node', ⟨⟨key, net⟩, hnet, node, hnode, rfl, rfl⟩ | hpin, hcomp⟩
    · obtain ⟨net', hnet', hrenamed⟩ := h.exists_new hnet
      obtain ⟨new, hnew, hr⟩ := exists_of_forall₂_left hrenamed.nodes hnode
      exact ⟨new, .inl ⟨_, hnet', new, hnew, rfl, rfl⟩, (hr.getComponent_eq hnamed).trans hcomp⟩
    · exact ⟨node', .inr hpin, hcomp⟩

/-- **Resistors to a rail** are found as before. -/
theorem hasResistorToPower_eq (hnamed : Named design) (upper : String → String) (net_id : String)
    (allowed : Option (List String)) :
    (fromDesign design').hasResistorToPower upper net_id allowed =
      (fromDesign design).hasResistorToPower upper net_id allowed := by
  rw [Bool.eq_iff_iff, hasResistorToPower_iff, hasResistorToPower_iff]
  simp only [h.onNet_iff hnamed, h.isPowerNet_eq]

end Renaming

/-! ## Renamings by a condition -/

/-- The node with the identifier of its component in the place of its reference designator. -/
def renameNode (design : Design) (node : NetNode) : NetNode :=
  match design.components.values.find? fun comp => comp.ref = node.component_ref with
  | some comp => { node with component_ref := comp.id }
  | none => node

def renameNet (design : Design) (selected : NetNode → Bool) (net : Net) : Net :=
  { net with
    nodes := net.nodes.map fun node => if selected node then renameNode design node else node }

/-- The nodes that the condition selects, by the key of their net, are renamed. -/
def renameNodes (design : Design) (selected : String → NetNode → Bool) : Design :=
  { design with nets :=
      { items := design.nets.items.map fun item =>
          (item.1, renameNet design (selected item.1) item.2)
        keyed := by
          have h := design.nets.keyed
          unfold Table.Keyed at h ⊢
          rw [pairwise_map]
          exact h } }

theorem renamedNode_renameNode (design : Design) (node : NetNode) :
    RenamedNode design node (renameNode design node) := by
  unfold renameNode
  split
  · rename_i comp hfind
    have href : comp.ref = node.component_ref := by simpa using find?_some hfind
    exact .inr ⟨comp, mem_of_find?_eq_some hfind, href.symm, rfl⟩
  · exact .inl rfl

theorem renaming_renameNodes (design : Design) (selected : String → NetNode → Bool) :
    Renaming design (renameNodes design selected) := by
  refine ⟨rfl, rfl, ?_⟩
  simp only [renameNodes, forall₂_map_right_iff]
  apply forall₂_same.mpr
  intro item _
  refine ⟨rfl, rfl, rfl, rfl, ?_⟩
  rw [renameNet, forall₂_map_right_iff]
  apply forall₂_same.mpr
  intro node _
  split
  · exact renamedNode_renameNode design node
  · exact .inl rfl

end ZapTrace.Models
