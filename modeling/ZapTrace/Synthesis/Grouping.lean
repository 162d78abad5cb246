import Mathlib.Data.List.Dedup
import Mathlib.Data.String.Basic
import ZapTrace.Core.Models
import ZapTrace.Library.UnionFind

/-!
# Functional groups

Components that share nets are placed together. The components on each net are read first, then a union-find joins the
first component of a net to the others, and the groups are the components with one root. The sets of the program are
lists here, and the order in which a set is visited is a parameter.

## Main results

* `groupComponents_spec`: the groups are the connected components, in any order of nets, nodes and components
-/

namespace ZapTrace.Grouping

open Dict hiding empty
open UnionFind List

variable (enum : List String → List String) (design : Models.Design)

/-- A set, by its elements in the order in which they were added. -/
def elements (xs : List String) : List String := xs.reverse.dedup.reverse

def sorted (xs : List String) : List String := xs.mergeSort fun a b => decide (a ≤ b)

structure FunctionalGroup where
  name : String
  component_ids : List String
  net_ids : List String
  deriving DecidableEq

/-! ## The components on each net -/

def componentRefLookup : Dict String String :=
  .ofItems (design.components.items.map fun item => (item.2.ref, item.1))

/-- The component that a node is on: the name is tried as an identifier first. -/
def nodeComponent (node : Models.NetNode) : Option String :=
  if node.component_ref ∈ design.components.keys then some node.component_ref
  else (componentRefLookup design).get? node.component_ref

def netComponentIds : List (String × List String) :=
  design.nets.items.filterMap fun item =>
    let comps := elements (item.2.nodes.filterMap (nodeComponent design))
    if comps.isEmpty then none else some (item.1, comps)

/-! ## `_ComponentUnionFind` -/

variable (table : UnionFind String)

/-- The loop of `find`, for as many rounds as there are keys. -/
def find (component_id : String) : String × UnionFind String :=
  findLoop table.parent.keys.length table component_id

def union (first second : String) : UnionFind String :=
  let (first_root, table) := find table first
  let (second_root, table) := find table second
  if first_root = second_root then table else ⟨table.parent.set first_root second_root⟩

/-- The components on one net are added, and the first is joined to the others. -/
def addNet (comp_list : List String) : UnionFind String :=
  let table := comp_list.foldl make table
  match comp_list with
  | [] => table
  | head :: tail => tail.foldl (fun table other => union table head other) table

def componentTable (net_to_comps : List (String × List String)) : UnionFind String :=
  net_to_comps.foldl (fun table item => addNet table (enum item.2)) .empty

/-- A component is added to the group of its root. -/
def collect (state : Dict String (List String) × UnionFind String) (component_id : String) :
    Dict String (List String) × UnionFind String :=
  let (root_to_comps, table) := state
  let (root, table) := find table component_id
  (root_to_comps.set root ((root_to_comps.get? root).getD [] ++ [component_id]), table)

def componentGroups (net_to_comps : List (String × List String)) : Dict String (List String) :=
  let all_component_ids := elements (net_to_comps.flatMap fun item => enum item.2)
  ((enum all_component_ids).foldl collect (.empty, componentTable enum net_to_comps)).1

/-- The nets with a node on one of the components. -/
def netIds (comps : List String) (net_to_comps : List (String × List String)) : List String :=
  (net_to_comps.filter fun item => item.2.any (· ∈ comps)).map Prod.fst

def functionalGroup (root : String) (comps : List String) (net_to_comps : List (String × List String)) :
    FunctionalGroup :=
  let net_ids := netIds comps net_to_comps
  let net_names := (enum net_ids).filterMap fun net_id => (design.nets.get? net_id).map Models.Net.name
  { name := if net_names.isEmpty then s!"group_{root}" else ", ".intercalate (sorted net_names)
    component_ids := sorted comps
    net_ids := sorted net_ids }

def groupComponents : List FunctionalGroup :=
  let net_to_comps := netComponentIds design
  if net_to_comps.isEmpty then []
  else (componentGroups enum net_to_comps).items.map fun (root, comps) =>
    functionalGroup enum design root comps net_to_comps

/-! ## Connected components -/

/-- No two components have one name. -/
structure Named : Prop where
  refs : ∀ a component b component', design.components.get? a = some component →
    design.components.get? b = some component' → component.ref = component'.ref → a = b
  ids : ∀ a component b component', design.components.get? a = some component →
    design.components.get? b = some component' → component.ref = b → a = b

def On (component_id net_id : String) : Prop :=
  ∃ component net, design.components.get? component_id = some component ∧ design.nets.get? net_id = some net ∧
    ∃ node ∈ net.nodes, node.component_ref = component_id ∨ node.component_ref = component.ref

def Seen (component_id : String) : Prop := ∃ net_id, On design component_id net_id

def Adjacent (a b : String) : Prop := ∃ net_id, On design a net_id ∧ On design b net_id

/-- A chain of shared nets joins two components. -/
def Joined : String → String → Prop := Relation.EqvGen (Adjacent design)

/-- The group of a component, with the nets on it in order, and named after them. -/
structure IsGroup (a : String) (group : FunctionalGroup) : Prop where
  component_ids : group.component_ids.Pairwise (· < ·)
  mem_component_ids : ∀ b, b ∈ group.component_ids ↔ Joined design a b
  net_ids : group.net_ids.Pairwise (· < ·)
  mem_net_ids : ∀ net_id, net_id ∈ group.net_ids ↔ ∃ b, Joined design a b ∧ On design b net_id
  name : group.name = ", ".intercalate
    (sorted (group.net_ids.filterMap fun net_id => (design.nets.get? net_id).map Models.Net.name))

/-- The same nets, nodes and components in another order. -/
structure Reordered (design design' : Models.Design) : Prop where
  components : design.components.items.Perm design'.components.items
  net_ids : design.nets.keys.Perm design'.nets.keys
  nets : ∀ net_id net net', design.nets.get? net_id = some net → design'.nets.get? net_id = some net' →
    net'.name = net.name ∧ net.nodes.Perm net'.nodes

/-- The tables that calls make, where only components are joined that were added. -/
inductive Reached : UnionFind String → Prop
  | empty : Reached .empty
  | add (table : UnionFind String) (component_id : String) : Reached table → Reached (table.make component_id)
  | find (table : UnionFind String) (component_id : String) : Reached table → Reached (find table component_id).2
  | union (table : UnionFind String) (first second : String) : Reached table → first ∈ table.parent.keys →
      second ∈ table.parent.keys → Reached (union table first second)

/-- The loop of `find` ends at a component that is its own parent. -/
def Stops (component_id : String) : Prop :=
  (find table component_id).2.parentOf (find table component_id).1 = (find table component_id).1

variable {enum design table} {rep : String → String}

/-! ## Sets and sorting -/

@[simp] theorem mem_elements {xs : List String} {x : String} : x ∈ elements xs ↔ x ∈ xs := by
  simp [elements]

theorem nodup_elements (xs : List String) : (elements xs).Nodup :=
  nodup_reverse.mpr (nodup_dedup _)

theorem sorted_perm (xs : List String) : (sorted xs).Perm xs := mergeSort_perm _ _

theorem pairwise_sorted (xs : List String) : (sorted xs).Pairwise (· ≤ ·) := by
  refine (pairwise_mergeSort ?_ ?_ xs).imp fun h => of_decide_eq_true h
  · intro a b c hab hbc
    exact decide_eq_true ((of_decide_eq_true hab).trans (of_decide_eq_true hbc))
  · intro a b
    simpa using le_total a b

theorem eq_of_perm {xs ys : List String} (hxs : xs.Pairwise (· ≤ ·)) (hys : ys.Pairwise (· ≤ ·)) (h : xs.Perm ys) :
    xs = ys := h.eq_of_pairwise (fun _ _ _ _ hab hba => le_antisymm hab hba) hxs hys

theorem sorted_eq_of_perm {xs ys : List String} (h : xs.Perm ys) : sorted xs = sorted ys :=
  eq_of_perm (pairwise_sorted xs) (pairwise_sorted ys) (((sorted_perm xs).trans h).trans (sorted_perm ys).symm)

theorem pairwise_lt_sorted {xs : List String} (h : xs.Nodup) : (sorted xs).Pairwise (· < ·) := by
  refine ((pairwise_sorted xs).and ((sorted_perm xs).nodup_iff.mpr h)).imp ?_
  rintro a b ⟨hle, hne⟩
  exact lt_of_le_of_ne hle hne

theorem eq_of_mem_iff {xs ys : List String} (hxs : xs.Pairwise (· < ·)) (hys : ys.Pairwise (· < ·))
    (h : ∀ x, x ∈ xs ↔ x ∈ ys) : xs = ys := by
  apply eq_of_perm (hxs.imp le_of_lt) (hys.imp le_of_lt)
  exact (perm_ext_iff_of_nodup (hxs.imp ne_of_lt) (hys.imp ne_of_lt)).mpr h

/-! ## The components on each net -/

theorem nodeComponent_eq_some_iff (h : Named design) {node : Models.NetNode} {c : String} :
    nodeComponent design node = some c ↔ ∃ component, design.components.get? c = some component ∧
      (node.component_ref = c ∨ node.component_ref = component.ref) := by
  have hlookup : (componentRefLookup design).get? node.component_ref = some c ↔
      ∃ component, design.components.get? c = some component ∧ node.component_ref = component.ref := by
    unfold componentRefLookup
    rw [get?_ofItems_iff]
    · simp only [mem_map, Prod.mk.injEq, Prod.exists, get?_eq_some_iff]
      constructor
      · rintro ⟨c, component, hmem, href, rfl⟩
        exact ⟨component, hmem, href.symm⟩
      · rintro ⟨component, hmem, href⟩
        exact ⟨c, component, hmem, href.symm, rfl⟩
    · simp only [mem_map, Prod.mk.injEq, Prod.exists, ← get?_eq_some_iff]
      rintro k a b ⟨a, component, ha, hrefa, rfl⟩ ⟨b, component', hb, hrefb, rfl⟩
      exact h.refs a component b component' ha hb (hrefa.trans hrefb.symm)
  unfold nodeComponent
  split
  · rename_i hkey
    obtain ⟨component, hget⟩ := mem_keys_iff.mp hkey
    rw [Option.some.injEq]
    constructor
    · rintro rfl
      exact ⟨component, hget, Or.inl rfl⟩
    · rintro ⟨component', hget', hname | hname⟩
      · exact hname
      · -- the reference designator of a component is the identifier of no other
        exact (h.ids c component' _ component hget' hget hname.symm).symm
  · rename_i hkey
    rw [hlookup]
    constructor
    · rintro ⟨component, hget, hname⟩
      exact ⟨component, hget, Or.inr hname⟩
    · rintro ⟨component, hget, hname | hname⟩
      · exact absurd (hname ▸ mem_keys_iff.mpr ⟨component, hget⟩) hkey
      · exact ⟨component, hget, hname⟩

theorem mem_netComponentIds_iff (h : Named design) {net_id : String} {comps : List String}
    (hmem : (net_id, comps) ∈ netComponentIds design) (c : String) : c ∈ comps ↔ On design c net_id := by
  obtain ⟨⟨key, net⟩, hitem, hsome⟩ := mem_filterMap.mp hmem
  simp only at hsome
  split at hsome
  · cases hsome
  · obtain ⟨rfl, rfl⟩ := Prod.mk.inj (Option.some.inj hsome)
    have hget := get?_eq_some_iff.mpr hitem
    simp only [mem_elements, mem_filterMap, nodeComponent_eq_some_iff h]
    constructor
    · rintro ⟨node, hnode, component, hc, hname⟩
      exact ⟨component, net, hc, hget, node, hnode, hname⟩
    · rintro ⟨component, net', hc, hget', node, hnode, hname⟩
      obtain rfl := Option.some.inj (hget.symm.trans hget')
      exact ⟨node, hnode, component, hc, hname⟩

theorem exists_of_on (h : Named design) {c net_id : String} (hon : On design c net_id) :
    ∃ comps, (net_id, comps) ∈ netComponentIds design := by
  obtain ⟨component, net, hc, hget, node, hnode, hname⟩ := hon
  have hmem : c ∈ elements (net.nodes.filterMap (nodeComponent design)) :=
    mem_elements.mpr (mem_filterMap.mpr ⟨node, hnode, (nodeComponent_eq_some_iff h).mpr ⟨component, hc, hname⟩⟩)
  refine ⟨elements (net.nodes.filterMap (nodeComponent design)),
    mem_filterMap.mpr ⟨(net_id, net), get?_eq_some_iff.mp hget, ?_⟩⟩
  simp only
  rw [if_neg]
  simpa using ne_nil_of_mem hmem

theorem nodup_netComponentIds : ((netComponentIds design).map Prod.fst).Nodup := by
  have hkeys : (design.nets.items.map Prod.fst).Nodup := pairwise_map.mpr design.nets.keyed
  refine hkeys.sublist ?_
  unfold netComponentIds
  induction design.nets.items with
  | nil => exact List.Sublist.slnil
  | cons item items ih =>
    rw [filterMap_cons]
    simp only
    split
    · rename_i hnone
      exact ih.cons _
    · rename_i found hsome
      split at hsome
      · cases hsome
      · cases hsome
        exact ih.cons₂ _

/-! ## The table -/

theorem find_spec (h : table.Represents rep) (component_id : String) :
    (find table component_id).1 = rep component_id ∧ (find table component_id).2.Represents rep ∧
      (find table component_id).2.parent.keys = table.parent.keys := by
  by_cases hmem : component_id ∈ table.parent.keys
  · obtain ⟨rank, hrank, hlt⟩ := h.exists_rank_lt
    exact h.findLoop_eq hmem hrank (hlt _ hmem)
  · -- a component that was not added is its own parent
    have hself : table.parentOf component_id = component_id := by
      rw [UnionFind.parentOf, not_mem_keys_iff.mp hmem, Option.getD_none]
    have hfind : find table component_id = (component_id, table) := by
      unfold find
      cases table.parent.keys.length with
      | zero => rfl
      | succ n => rw [findLoop, if_pos hself]
    rw [hfind]
    exact ⟨(h.unseen _ hmem).symm, h, rfl⟩

theorem union_spec (h : table.Represents rep) {first second : String} (hfirst : first ∈ table.parent.keys)
    (hsecond : second ∈ table.parent.keys) :
    (union table first second).Represents (merge rep second first) ∧
      (union table first second).parent.keys = table.parent.keys := by
  obtain ⟨hroot, hfound, hkeys⟩ := find_spec h first
  obtain ⟨hroot', hfound', hkeys'⟩ := find_spec hfound second
  have hsame := hkeys'.trans hkeys
  unfold union
  simp only [hroot, hroot']
  split
  · rename_i heq
    rw [merge_of_eq heq.symm]
    exact ⟨hfound', hsame⟩
  · rename_i hne
    refine ⟨hfound'.link (hsame ▸ hsecond) (hsame ▸ hfirst) (Ne.symm hne), ?_⟩
    rw [keys_set_of_mem, hsame]
    exact mem_keys_iff.mpr ⟨_, hfound'.root_rep first (hsame ▸ hfirst)⟩

theorem foldl_make_spec (h : table.Represents rep) (comp_list : List String) :
    (comp_list.foldl make table).Represents rep ∧
      ∀ k, k ∈ (comp_list.foldl make table).parent.keys ↔ k ∈ comp_list ∨ k ∈ table.parent.keys := by
  induction comp_list generalizing table with
  | nil => exact ⟨h, fun k => by simp⟩
  | cons c comp_list ih =>
    obtain ⟨hrep, hkeys⟩ := ih (h.make c)
    refine ⟨hrep, fun k => ?_⟩
    rw [foldl_cons, hkeys, mem_keys_make, mem_cons, or_assoc, or_left_comm]

/-- The pairs that the loop over a net joins. -/
def edges : List String → List (String × String)
  | [] => []
  | head :: tail => tail.map fun other => (other, head)

theorem addNet_spec (h : table.Represents rep) (comp_list : List String) :
    (addNet table comp_list).Represents
        ((edges comp_list).foldl (fun rep edge => merge rep edge.1 edge.2) rep) ∧
      ∀ k, k ∈ (addNet table comp_list).parent.keys ↔ k ∈ comp_list ∨ k ∈ table.parent.keys := by
  obtain ⟨hmade, hkeys⟩ := foldl_make_spec h comp_list
  cases comp_list with
  | nil => exact ⟨h, fun k => by simp [addNet]⟩
  | cons head tail =>
    simp only [addNet, edges, foldl_map]
    have hall : ∀ k ∈ head :: tail, k ∈ ((head :: tail).foldl make table).parent.keys :=
      fun k hk => (hkeys k).mpr (Or.inl hk)
    -- the unions leave the keys as they are
    suffices hrun : ∀ (others : List String) (rep : String → String) (made : UnionFind String), made.Represents rep →
        (∀ k, k ∈ head :: others → k ∈ made.parent.keys) →
        (others.foldl (fun table other => union table head other) made).Represents
            (others.foldl (fun rep other => merge rep other head) rep) ∧
          (others.foldl (fun table other => union table head other) made).parent.keys = made.parent.keys by
      obtain ⟨hrep, hsame⟩ := hrun tail rep _ hmade hall
      exact ⟨hrep, fun k => by rw [hsame, hkeys]⟩
    intro others
    induction others with
    | nil => exact fun rep made hmade _ => ⟨hmade, rfl⟩
    | cons other others ih =>
      intro rep made hmade hmem
      obtain ⟨hjoined, hsame⟩ := union_spec hmade (hmem head (by simp)) (hmem other (by simp))
      obtain ⟨hrep, hkeys⟩ := ih _ _ hjoined fun k hk => hsame ▸ hmem k (by
        rcases mem_cons.mp hk with rfl | hk
        · exact mem_cons_self
        · exact mem_cons_of_mem _ (mem_cons_of_mem _ hk))
      exact ⟨hrep, hkeys.trans hsame⟩

theorem componentTable_spec (enum : List String → List String) (net_to_comps : List (String × List String)) :
    (componentTable enum net_to_comps).Represents
        ((net_to_comps.flatMap fun item => edges (enum item.2)).foldl
          (fun rep edge => merge rep edge.1 edge.2) id) ∧
      ∀ k, k ∈ (componentTable enum net_to_comps).parent.keys ↔ ∃ item ∈ net_to_comps, k ∈ enum item.2 := by
  induction net_to_comps using reverseRecOn with
  | nil => exact ⟨represents_empty, fun k => by simp [componentTable, UnionFind.empty, Dict.keys, Dict.empty]⟩
  | append_singleton nets item ih =>
    obtain ⟨hrep, hkeys⟩ := addNet_spec ih.1 (enum item.2)
    simp only [componentTable, foldl_append, foldl_cons, foldl_nil, flatMap_append,
      flatMap_singleton]
    refine ⟨hrep, fun k => (hkeys k).trans ?_⟩
    rw [ih.2]
    simp only [mem_append, mem_singleton, or_and_right, exists_or, exists_eq_left]
    exact or_comm

/-- The pairs that are joined connect the components that have a net in common. -/
theorem eqvGen_edges_iff (henum : ∀ xs, (enum xs).Perm xs) (net_to_comps : List (String × List String)) (a b : String) :
    Relation.EqvGen (fun a b => (a, b) ∈ net_to_comps.flatMap fun item => edges (enum item.2)) a b ↔
      Relation.EqvGen (fun a b => ∃ item ∈ net_to_comps, a ∈ item.2 ∧ b ∈ item.2) a b := by
  constructor
  · apply Relation.EqvGen.mono
    intro a b h
    obtain ⟨item, hitem, hedge⟩ := mem_flatMap.mp h
    have hmem : a ∈ enum item.2 ∧ b ∈ enum item.2 := by
      cases hcomps : enum item.2 with
      | nil => simp [hcomps, edges] at hedge
      | cons head tail =>
        rw [hcomps, edges] at hedge
        obtain ⟨other, hother, heq⟩ := mem_map.mp hedge
        obtain ⟨rfl, rfl⟩ := Prod.mk.inj heq
        exact ⟨mem_cons_of_mem _ hother, mem_cons_self⟩
    exact ⟨item, hitem, (henum _).mem_iff.mp hmem.1, (henum _).mem_iff.mp hmem.2⟩
  · intro h
    induction h with
    | rel a b h =>
      obtain ⟨item, hitem, ha, hb⟩ := h
      cases hcomps : enum item.2 with
      | nil => exact absurd ((henum _).mem_iff.mpr ha) (by simp [hcomps])
      | cons head tail =>
        -- each component of the net is joined to the first
        have hhead : ∀ c ∈ item.2, Relation.EqvGen
            (fun a b => (a, b) ∈ net_to_comps.flatMap fun item => edges (enum item.2)) c head := by
          intro c hc
          have hmem : c ∈ head :: tail := hcomps ▸ (henum _).mem_iff.mpr hc
          rcases mem_cons.mp hmem with rfl | htail
          · exact Relation.EqvGen.refl _
          · refine Relation.EqvGen.rel _ _ (mem_flatMap.mpr ⟨item, hitem, ?_⟩)
            rw [hcomps, edges]
            exact mem_map.mpr ⟨c, htail, rfl⟩
        exact (hhead a ha).trans _ _ _ ((hhead b hb).symm _ _)
    | refl => exact Relation.EqvGen.refl _
    | symm _ _ _ ih => exact ih.symm _ _
    | trans _ _ _ _ _ ih ih' => exact ih.trans _ _ _ ih'

theorem foldl_collect (h : table.Represents rep) (ids : List String) :
    (ids.foldl collect (.empty, table)).1 = groupBy rep id ids ∧
      (ids.foldl collect (.empty, table)).2.Represents rep := by
  induction ids using reverseRecOn with
  | nil => exact ⟨rfl, h⟩
  | append_singleton ids c ih =>
    obtain ⟨hgroups, hrep⟩ := ih
    obtain ⟨hroot, hfound, -⟩ := find_spec hrep c
    rw [foldl_concat]
    refine ⟨?_, hfound⟩
    simp only [collect, hroot, hgroups, groupBy, accumulate_concat, id]

/-! ## The find loop -/

theorem Reached.represents (h : Reached table) : ∃ rep, table.Represents rep := by
  induction h with
  | empty => exact ⟨id, represents_empty⟩
  | add table component_id _ ih =>
    obtain ⟨rep, hrep⟩ := ih
    exact ⟨rep, hrep.make component_id⟩
  | find table component_id _ ih =>
    obtain ⟨rep, hrep⟩ := ih
    exact ⟨rep, (find_spec hrep component_id).2.1⟩
  | union table first second _ hfirst hsecond ih =>
    obtain ⟨rep, hrep⟩ := ih
    exact ⟨_, (union_spec hrep hfirst hsecond).1⟩

theorem Reached.stops (h : Reached table) (component_id : String) : Stops table component_id := by
  obtain ⟨rep, hrep⟩ := h.represents
  obtain ⟨hroot, hfound, hkeys⟩ := find_spec hrep component_id
  unfold Stops
  rw [hroot]
  by_cases hmem : component_id ∈ table.parent.keys
  · have hget := hfound.root_rep component_id (hkeys ▸ hmem)
    rw [UnionFind.parentOf, hget, Option.getD_some]
  · rw [hrep.unseen _ hmem, UnionFind.parentOf, not_mem_keys_iff.mp (hkeys ▸ hmem), Option.getD_none]

/-! ## The groups -/

theorem adjacent_iff (hnamed : Named design) (a b : String) :
    Adjacent design a b ↔ ∃ item ∈ netComponentIds design, a ∈ item.2 ∧ b ∈ item.2 := by
  constructor
  · rintro ⟨net_id, ha, hb⟩
    obtain ⟨comps, hmem⟩ := exists_of_on hnamed ha
    have hon := mem_netComponentIds_iff hnamed hmem
    exact ⟨(net_id, comps), hmem, (hon a).mpr ha, (hon b).mpr hb⟩
  · rintro ⟨⟨net_id, comps⟩, hmem, ha, hb⟩
    have hon := mem_netComponentIds_iff hnamed hmem
    exact ⟨net_id, (hon a).mp ha, (hon b).mp hb⟩

theorem mem_items_groupBy {ids : List String} {root : String} {comps : List String}
    (h : (root, comps) ∈ (groupBy rep id ids).items) :
    comps = ids.filter (fun a => rep a = root) ∧ comps ≠ [] := by
  have hget := get?_eq_some_iff.mpr h
  rw [get?_groupBy] at hget
  split at hget
  · cases hget
  · rename_i hne
    obtain rfl := Option.some.inj hget
    rw [map_id]
    exact ⟨rfl, hne⟩

theorem isGroup_functionalGroup (henum : ∀ xs, (enum xs).Perm xs) (hnamed : Named design) {a root : String}
    {comps : List String} (hnodup : comps.Nodup) (hmem : ∀ b, b ∈ comps ↔ Joined design a b)
    (ha : Seen design a) :
    IsGroup design a (functionalGroup enum design root comps (netComponentIds design)) := by
  have hids : ∀ net_id, net_id ∈ netIds comps (netComponentIds design) ↔
      ∃ b, Joined design a b ∧ On design b net_id := by
    intro net_id
    simp only [netIds, mem_map, mem_filter, any_eq_true, decide_eq_true_eq, Prod.exists, exists_and_right,
      exists_eq_right, hmem]
    constructor
    · rintro ⟨others, hitem, b, hb, hjoined⟩
      exact ⟨b, hjoined, (mem_netComponentIds_iff hnamed hitem b).mp hb⟩
    · rintro ⟨b, hjoined, hon⟩
      obtain ⟨others, hitem⟩ := exists_of_on hnamed hon
      exact ⟨others, hitem, b, (mem_netComponentIds_iff hnamed hitem b).mpr hon, hjoined⟩
  have hnets : (netIds comps (netComponentIds design)).Nodup :=
    nodup_netComponentIds.sublist (filter_sublist.map _)
  refine ⟨pairwise_lt_sorted hnodup, fun b => (sorted_perm _).mem_iff.trans (hmem b), pairwise_lt_sorted hnets,
    fun net_id => (sorted_perm _).mem_iff.trans (hids net_id), ?_⟩
  simp only [functionalGroup]
  rw [if_neg]
  · congr 1
    exact sorted_eq_of_perm (((henum _).trans (sorted_perm _).symm).filterMap _)
  · -- the component is on a net, which has a name
    obtain ⟨net_id, hon⟩ := ha
    have hnet := (hids net_id).mpr ⟨a, Relation.EqvGen.refl a, hon⟩
    obtain ⟨_, net, _, hget, _⟩ := hon
    have hname : net.name ∈ (enum (netIds comps (netComponentIds design))).filterMap fun net_id =>
        (design.nets.get? net_id).map Models.Net.name :=
      mem_filterMap.mpr ⟨net_id, (henum _).mem_iff.mpr hnet, by rw [hget, Option.map_some]⟩
    simpa using ne_nil_of_mem hname

theorem IsGroup.eq {a : String} {g g' : FunctionalGroup} (h : IsGroup design a g) (h' : IsGroup design a g') :
    g = g' := by
  have hids := eq_of_mem_iff h.component_ids h'.component_ids fun b =>
    (h.mem_component_ids b).trans (h'.mem_component_ids b).symm
  have hnets := eq_of_mem_iff h.net_ids h'.net_ids fun net_id =>
    (h.mem_net_ids net_id).trans (h'.mem_net_ids net_id).symm
  have hname := h.name.trans ((congrArg _ (by rw [hnets])).trans h'.name.symm)
  cases g
  cases g'
  simp_all only

theorem Joined.seen {a b : String} (h : Joined design a b) :
    Seen design a ↔ Seen design b := by
  induction h with
  | rel a b h =>
    obtain ⟨net_id, ha, hb⟩ := h
    exact iff_of_true ⟨net_id, ha⟩ ⟨net_id, hb⟩
  | refl => exact Iff.rfl
  | symm _ _ _ ih => exact ih.symm
  | trans _ _ _ _ _ ih ih' => exact ih.trans ih'

theorem exists_groupBy (henum : ∀ xs, (enum xs).Perm xs) (hnamed : Named design) :
    ∃ rep ids, componentGroups enum (netComponentIds design) = groupBy rep id ids ∧
      (∀ a, a ∈ ids ↔ Seen design a) ∧ ∀ a, Seen design a → IsGroup design a
        (functionalGroup enum design (rep a) (ids.filter fun c => rep c = rep a) (netComponentIds design)) := by
  obtain ⟨htable, -⟩ := componentTable_spec enum (netComponentIds design)
  obtain ⟨rep, hrep⟩ : ∃ rep, (componentTable enum (netComponentIds design)).Represents rep ∧
      ∀ a b, rep a = rep b ↔ Joined design a b := by
    refine ⟨_, htable, fun a b => ?_⟩
    rw [foldl_merge_eq_iff, eqvGen_edges_iff henum, Joined]
    simp only [← adjacent_iff hnamed]
  have hids : ∀ a, a ∈ enum (elements ((netComponentIds design).flatMap fun item => enum item.2)) ↔ Seen design a := by
    intro a
    simp only [(henum _).mem_iff, mem_elements, mem_flatMap]
    constructor
    · rintro ⟨⟨net_id, comps⟩, hmem, ha⟩
      exact ⟨net_id, (mem_netComponentIds_iff hnamed hmem a).mp ha⟩
    · rintro ⟨net_id, hon⟩
      obtain ⟨comps, hmem⟩ := exists_of_on hnamed hon
      exact ⟨(net_id, comps), hmem, (mem_netComponentIds_iff hnamed hmem a).mpr hon⟩
  refine ⟨rep, _, (foldl_collect hrep.1 _).1, hids, fun a ha => ?_⟩
  refine isGroup_functionalGroup henum hnamed (((henum _).nodup_iff.mpr (nodup_elements _)).filter _) (fun b => ?_) ha
  rw [mem_filter, decide_eq_true_eq, hrep.2, hids]
  exact ⟨fun h => h.2.symm _ _, fun h => ⟨h.seen.mp ha, h.symm _ _⟩⟩

theorem mem_groupComponents_iff (henum : ∀ xs, (enum xs).Perm xs) (hnamed : Named design) (g : FunctionalGroup) :
    g ∈ groupComponents enum design ↔ ∃ a, Seen design a ∧ IsGroup design a g := by
  obtain ⟨rep, ids, hgroups, hids, hgroup⟩ := exists_groupBy henum hnamed
  unfold groupComponents
  simp only
  split
  · rename_i hempty
    refine iff_of_false not_mem_nil ?_
    rintro ⟨a, ⟨net_id, hon⟩, -⟩
    obtain ⟨comps, hmem⟩ := exists_of_on hnamed hon
    rw [isEmpty_iff.mp hempty] at hmem
    cases hmem
  rw [hgroups, mem_map]
  constructor
  · rintro ⟨⟨root, comps⟩, hitem, rfl⟩
    obtain ⟨rfl, hne⟩ := mem_items_groupBy hitem
    obtain ⟨a, ha⟩ := exists_mem_of_ne_nil _ hne
    obtain ⟨haid, hroot⟩ := mem_filter.mp ha
    obtain rfl := of_decide_eq_true hroot
    exact ⟨a, (hids a).mp haid, hgroup a ((hids a).mp haid)⟩
  · rintro ⟨a, ha, hown⟩
    have hmem : a ∈ ids.filter fun c => rep c = rep a := mem_filter.mpr ⟨(hids a).mpr ha, by simp⟩
    refine ⟨(rep a, ids.filter fun c => rep c = rep a), get?_eq_some_iff.mp ?_, (hgroup a ha).eq hown⟩
    rw [get?_groupBy, if_neg (ne_nil_of_mem hmem), map_id]

theorem pairwise_groupComponents (henum : ∀ xs, (enum xs).Perm xs) (hnamed : Named design) :
    (groupComponents enum design).Pairwise fun g g' => g.component_ids.Disjoint g'.component_ids := by
  obtain ⟨rep, ids, hgroups, -⟩ := exists_groupBy henum hnamed
  unfold groupComponents
  simp only
  split
  · exact List.Pairwise.nil
  rw [hgroups, pairwise_map]
  refine (groupBy rep id ids).keyed.imp_of_mem ?_
  rintro ⟨root, comps⟩ ⟨root', comps'⟩ hitem hitem' hne a ha ha'
  -- a component has one representative
  obtain ⟨rfl, -⟩ := mem_items_groupBy hitem
  obtain ⟨rfl, -⟩ := mem_items_groupBy hitem'
  have hroot := of_decide_eq_true (mem_filter.mp ((sorted_perm _).mem_iff.mp ha)).2
  have hroot' := of_decide_eq_true (mem_filter.mp ((sorted_perm _).mem_iff.mp ha')).2
  exact hne (hroot.symm.trans hroot')

/-! ## Another order -/

variable {design' : Models.Design}

namespace Reordered

theorem get?_eq (h : Reordered design design') (a : String) : design'.components.get? a = design.components.get? a := by
  ext component
  rw [get?_eq_some_iff, get?_eq_some_iff, h.components.mem_iff]

theorem get?_nets (h : Reordered design design') {net_id : String} {net : Models.Net}
    (hget : design.nets.get? net_id = some net) :
    ∃ net', design'.nets.get? net_id = some net' ∧ net'.name = net.name ∧ net.nodes.Perm net'.nodes := by
  obtain ⟨net', hget'⟩ := mem_keys_iff.mp (h.net_ids.mem_iff.mp (mem_keys_iff.mpr ⟨net, hget⟩))
  exact ⟨net', hget', h.nets net_id net net' hget hget'⟩

theorem symm (h : Reordered design design') : Reordered design' design where
  components := h.components.symm
  net_ids := h.net_ids.symm
  nets net_id net' net hget' hget := by
    obtain ⟨hname, hnodes⟩ := h.nets net_id net net' hget hget'
    exact ⟨hname.symm, hnodes.symm⟩

theorem on_of_on (h : Reordered design design') {a net_id : String} (hon : On design a net_id) :
    On design' a net_id := by
  obtain ⟨component, net, hc, hget, node, hnode, hname⟩ := hon
  obtain ⟨net', hget', -, hnodes⟩ := h.get?_nets hget
  exact ⟨component, net', (h.get?_eq a).trans hc, hget', node, hnodes.mem_iff.mp hnode, hname⟩

theorem on_eq (h : Reordered design design') : On design' = On design := by
  ext a net_id
  exact ⟨h.symm.on_of_on, h.on_of_on⟩

theorem named (h : Reordered design design') (hnamed : Named design) : Named design' where
  refs a component b component' ha hb := hnamed.refs a component b component' (h.get?_eq a ▸ ha) (h.get?_eq b ▸ hb)
  ids a component b component' ha hb := hnamed.ids a component b component' (h.get?_eq a ▸ ha) (h.get?_eq b ▸ hb)

theorem isGroup (h : Reordered design design') {a : String} {g : FunctionalGroup} (hgroup : IsGroup design a g) :
    IsGroup design' a g := by
  have hjoined : Joined design' = Joined design := by
    unfold Joined Adjacent
    rw [h.on_eq]
  have hname : ∀ net_id, (design'.nets.get? net_id).map Models.Net.name =
      (design.nets.get? net_id).map Models.Net.name := by
    intro net_id
    cases hget : design.nets.get? net_id with
    | none =>
      have hkey := mt h.net_ids.mem_iff.mpr (not_mem_keys_iff.mpr hget)
      rw [not_mem_keys_iff.mp hkey]
    | some net =>
      obtain ⟨net', hget', heq, -⟩ := h.get?_nets hget
      rw [hget', Option.map_some, Option.map_some, heq]
  obtain ⟨hids, hmem, hnets, hnet, hgname⟩ := hgroup
  rw [← hjoined] at hmem hnet
  rw [← h.on_eq] at hnet
  simp only [← hname] at hgname
  exact ⟨hids, hmem, hnets, hnet, hgname⟩

end Reordered

/-! ## Grouping -/

/-- **The groups are the connected components.** Each component that has a node is in one group, with the components
that a chain of shared nets joins to it and with the nets on them; the order of the design and of the sets does not
matter; and the loop of `find` ends in each table that the calls can make. -/
theorem groupComponents_spec (henum : ∀ xs, (enum xs).Perm xs) (hnamed : Named design) :
    (∀ g, g ∈ groupComponents enum design ↔ ∃ a, Seen design a ∧ IsGroup design a g) ∧
      (∀ a, Seen design a ↔ ∃ g ∈ groupComponents enum design, a ∈ g.component_ids) ∧
      ((groupComponents enum design).Pairwise fun g g' => g.component_ids.Disjoint g'.component_ids) ∧
      (∀ a b, Seen design a →
        ((∃ g ∈ groupComponents enum design, a ∈ g.component_ids ∧ b ∈ g.component_ids) ↔ Joined design a b)) ∧
      (∀ g ∈ groupComponents enum design, ∀ net_id,
        net_id ∈ g.net_ids ↔ ∃ b ∈ g.component_ids, On design b net_id) ∧
      (∀ (enum' : List String → List String) (design' : Models.Design), (∀ xs, (enum' xs).Perm xs) →
        Reordered design design' → ∀ g, g ∈ groupComponents enum' design' ↔ g ∈ groupComponents enum design) ∧
      ∀ table, Reached table → ∀ component_id, Stops table component_id := by
  have hmem := mem_groupComponents_iff henum hnamed
  have hown : ∀ a, Seen design a → ∃ g ∈ groupComponents enum design, IsGroup design a g := by
    intro a ha
    obtain ⟨rep, ids, -, -, hgroup⟩ := exists_groupBy henum hnamed
    exact ⟨_, (hmem _).mpr ⟨a, ha, hgroup a ha⟩, hgroup a ha⟩
  refine ⟨hmem, ?_, pairwise_groupComponents henum hnamed, ?_, ?_, ?_, ?_⟩
  · intro a
    constructor
    · intro ha
      obtain ⟨g, hg, hgroup⟩ := hown a ha
      exact ⟨g, hg, (hgroup.mem_component_ids a).mpr (Relation.EqvGen.refl a)⟩
    · rintro ⟨g, hg, ha⟩
      obtain ⟨b, hb, hgroup⟩ := (hmem g).mp hg
      exact ((hgroup.mem_component_ids a).mp ha).seen.mp hb
  · intro a b ha
    constructor
    · rintro ⟨g, hg, hag, hbg⟩
      obtain ⟨c, -, hgroup⟩ := (hmem g).mp hg
      exact (((hgroup.mem_component_ids a).mp hag).symm _ _).trans _ _ _ ((hgroup.mem_component_ids b).mp hbg)
    · intro hjoined
      obtain ⟨g, hg, hgroup⟩ := hown a ha
      exact ⟨g, hg, (hgroup.mem_component_ids a).mpr (Relation.EqvGen.refl a), (hgroup.mem_component_ids b).mpr hjoined⟩
  · intro g hg net_id
    obtain ⟨a, -, hgroup⟩ := (hmem g).mp hg
    rw [hgroup.mem_net_ids]
    simp only [hgroup.mem_component_ids]
  · intro enum' design' henum' hreordered g
    have hseen : Seen design' = Seen design := by
      unfold Seen
      rw [hreordered.on_eq]
    rw [mem_groupComponents_iff henum' (hreordered.named hnamed), hmem, hseen]
    exact exists_congr fun a => and_congr_right fun _ => ⟨hreordered.symm.isGroup, hreordered.isGroup⟩
  · exact fun table h => h.stops

/-- Two components on a supply net, one of them named by its identifier. -/
def supplyDesign : Models.Design where
  components := (Dict.empty.set "c1" { id := "c1", ref := "C1", type := "capacitor" }).set "u1"
    { id := "u1", ref := "U1", type := "mcu" }
  nets := Dict.empty.set "vcc" { id := "vcc", name := "VCC", type := .power, nodes := [⟨"C1", "1"⟩, ⟨"u1", "VDD"⟩] }

theorem named_supplyDesign : Named supplyDesign := by
  have hitems : ∀ a component, supplyDesign.components.get? a = some component →
      a = "c1" ∧ component.ref = "C1" ∨ a = "u1" ∧ component.ref = "U1" := by
    intro a component hget
    simp only [supplyDesign, get?_set, get?_empty] at hget
    split at hget
    · rename_i ha
      exact Or.inr ⟨ha, (Option.some.inj hget) ▸ rfl⟩
    · split at hget
      · rename_i ha
        exact Or.inl ⟨ha, (Option.some.inj hget) ▸ rfl⟩
      · cases hget
  constructor
  all_goals
    intro a component b component' ha hb h
    rcases hitems a component ha with ⟨rfl, hrefa⟩ | ⟨rfl, hrefa⟩ <;>
      rcases hitems b component' hb with ⟨rfl, hrefb⟩ | ⟨rfl, hrefb⟩ <;> simp_all

theorem groups_supplyDesign :
    Named supplyDesign ∧ ∃ g ∈ groupComponents reverse supplyDesign, "c1" ∈ g.component_ids ∧ "u1" ∈ g.component_ids := by
  have hc : On supplyDesign "c1" "vcc" := ⟨_, _, rfl, rfl, ⟨"C1", "1"⟩, by simp, Or.inr rfl⟩
  have hu : On supplyDesign "u1" "vcc" := ⟨_, _, rfl, rfl, ⟨"u1", "VDD"⟩, by simp, Or.inl rfl⟩
  have hspec := groupComponents_spec (fun xs => xs.reverse_perm) named_supplyDesign
  exact ⟨named_supplyDesign, (hspec.2.2.2.1 "c1" "u1" ⟨"vcc", hc⟩).mpr (Relation.EqvGen.rel _ _ ⟨"vcc", hc, hu⟩)⟩

end ZapTrace.Grouping
