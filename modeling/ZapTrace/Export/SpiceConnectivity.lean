import ZapTrace.Export.Spice

/-!
# What a SPICE netlist connects

SPICE does not tell upper from lower case, so the names and nodes of the cards are compared after folding. Labels
of different nets are different, but may become one when they are folded; and the node of a pin that is on no net
is compared with no other. The exporter looks for a pin by the reference of its component in the first net that
has it, so a pin may also be on a net without being found there.

## Main results

* `fold_node_eq_iff`: two terminals have one node when they are found on one net, or when their nodes collide
* `reads_iff`: the netlist has the connectivity of the design when each pin is found where it is, and no nodes and
  no names collide
-/

namespace ZapTrace.Spice

open String hiding map map_map
open Models List

/-- Names in SPICE, without the case of letters. -/
def fold (s : String) : String := lower s

variable (design : Design)

def terminals : List Terminal := (cards design).flatMap fun card => [card.first, card.second]

/-- A pin is on a net: a node names the pin, and its component by the identifier or the reference. -/
def OnNet (t : Terminal) (net : Models.Net) : Prop :=
  ∃ node ∈ net.nodes, (design.getComponent node.component_ref).map Models.Component.ref = some t.ref ∧
    node.pin_name = t.pin_name

instance (t : Terminal) (net : Models.Net) : Decidable (OnNet design t net) :=
  inferInstanceAs (Decidable (∃ node ∈ net.nodes, _))

/-- Two pins are on one net, or both on grounds. -/
def SameNode (t t' : Terminal) : Prop :=
  (∃ net ∈ design.nets.values, OnNet design t net ∧ OnNet design t' net) ∨
    (∃ net ∈ design.nets.values, net.type = .ground ∧ OnNet design t net) ∧
      ∃ net ∈ design.nets.values, net.type = .ground ∧ OnNet design t' net

instance (t t' : Terminal) : Decidable (SameNode design t t') := inferInstanceAs (Decidable (_ ∨ _))

/-- The netlist has the connectivity of the design. -/
structure Reads : Prop where
  names : ((cards design).map fun card => fold card.name).Nodup
  nodes : ∀ t ∈ terminals design, ∀ t' ∈ terminals design, t ≠ t' →
    (fold t.node = fold t'.node ↔ SameNode design t t')

/-- The net that a pin is found on: the first with a node that has the reference and the pin. -/
def found (t : Terminal) : Option Models.Net := design.getNetForPin t.ref t.pin_name

def nodeLabel (net : Models.Net) : String := ((buildNodeMap design).get? net.id).getD (sanitizeNode net.name)

/-- Two pins are found on one net, or both on grounds. -/
def SameFound (t t' : Terminal) : Prop :=
  ∃ net net', found design t = some net ∧ found design t' = some net' ∧
    (net.id = net'.id ∨ (net.type = .ground ∧ net'.type = .ground))

/-- Nodes that are one in SPICE although they are of different nets, or of no net. -/
inductive Collides (t t' : Terminal) : Prop
  | case_twins (net net' : Models.Net) (h : found design t = some net) (h' : found design t' = some net')
    (hground : net.type ≠ .ground) (hground' : net'.type ≠ .ground) (hne : nodeLabel design net ≠ nodeLabel design net')
    (heq : fold (nodeLabel design net) = fold (nodeLabel design net'))
  | net_dangling (net : Models.Net) (h : found design t = some net) (h' : found design t' = none)
    (hground : net.type ≠ .ground)
    (heq : fold (nodeLabel design net) = fold (danglingNode t'.ref t'.pin_name))
  | dangling_net (net : Models.Net) (h : found design t = none) (h' : found design t' = some net)
    (hground : net.type ≠ .ground)
    (heq : fold (danglingNode t.ref t.pin_name) = fold (nodeLabel design net))
  | dangling (h : found design t = none) (h' : found design t' = none)
    (heq : fold (danglingNode t.ref t.pin_name) = fold (danglingNode t'.ref t'.pin_name))

/-- The name of the card of a component, if there is one: passives have one with a value and two pins, diodes with
two pins. -/
def cardName (comp : Models.Component) : Option String :=
  match elementClass comp with
  | none => none
  | some cls =>
    if 2 ≤ comp.pins.keys.length ∧ (cls = .D ∨ spiceValue comp.value ≠ "") then some (elementName comp.ref cls)
    else none

/-- The names of the cards differ in more than case, each pin is found where it is, and no nodes collide. -/
structure Plain : Prop where
  names : (design.components.values.filterMap cardName).Pairwise fun name name' => fold name ≠ fold name'
  kept : ∀ t ∈ terminals design, ∀ t' ∈ terminals design, t ≠ t' → SameNode design t t' →
    SameFound design t t' ∨ Collides design t t'
  found : ∀ t ∈ terminals design, ∀ t' ∈ terminals design, t ≠ t' → SameFound design t t' → SameNode design t t'
  apart : ∀ t ∈ terminals design, ∀ t' ∈ terminals design, t ≠ t' → Collides design t t' → SameNode design t t'

/-! ## Cards -/

theorem card?_passiveCard (node_map : Dict String String) (comp : Models.Component) (cls : ElementClass) :
    ((passiveCard design node_map comp cls comp.pins.keys).1.card?).map Card.name =
      if 2 ≤ comp.pins.keys.length ∧ spiceValue comp.value ≠ "" then some (elementName comp.ref cls) else none := by
  unfold passiveCard
  rcases comp.pins.keys with _ | ⟨first, _ | ⟨second, rest⟩⟩
  · rfl
  · rfl
  · by_cases hvalue : spiceValue comp.value = ""
    · simp [hvalue, ComponentLine.card?]
    · simp [hvalue, ComponentLine.card?]

theorem isSome_diodeTerminals (comp : Models.Component) : (diodeTerminals comp).isSome ↔ 2 ≤ comp.pins.keys.length := by
  unfold diodeTerminals
  rcases comp.pins.keys with _ | ⟨first, _ | ⟨second, rest⟩⟩
  · simp
  · simp
  · dsimp only
    split <;> simp

theorem card?_diodeCard (node_map : Dict String String) (comp : Models.Component) :
    ((diodeCard design node_map comp).1.card?).map Card.name =
      if 2 ≤ comp.pins.keys.length then some (elementName comp.ref .D) else none := by
  have hsome := isSome_diodeTerminals comp
  unfold diodeCard
  cases hterminals : diodeTerminals comp with
  | none =>
    rw [hterminals] at hsome
    rw [if_neg (fun h => by simpa using hsome.mpr h)]
    rfl
  | some pins =>
    rw [hterminals] at hsome
    rw [if_pos (hsome.mp rfl)]
    rfl

theorem card?_componentCard (node_map : Dict String String) (comp : Models.Component) :
    ((componentCard design node_map comp).1.card?).map Card.name = cardName comp := by
  unfold componentCard cardName
  cases hclass : elementClass comp with
  | none => rfl
  | some cls =>
    cases cls with
    | D =>
      refine (card?_diodeCard design node_map comp).trans ?_
      simp
    | R | C | L =>
      refine (card?_passiveCard design node_map comp _).trans ?_
      simp

/-- A line is a comment, or a card with terminals at two pins of the component. -/
def TwoPins (node_map : Dict String String) (comp : Models.Component) (line : ComponentLine) : Prop :=
  (∃ text, line = .comment text) ∨ ∃ name first second value,
    line = .element ⟨name, terminal design node_map comp first, terminal design node_map comp second, value⟩

theorem twoPins_passiveCard (node_map : Dict String String) (comp : Models.Component) (cls : ElementClass)
    (pins : List String) :
    TwoPins design node_map comp (passiveCard design node_map comp cls pins).1 := by
  unfold passiveCard
  rcases pins with _ | ⟨first, _ | ⟨second, rest⟩⟩
  · exact Or.inl ⟨_, rfl⟩
  · exact Or.inl ⟨_, rfl⟩
  · by_cases hvalue : spiceValue comp.value = ""
    · simp only [ne_eq, hvalue, not_true_eq_false, if_false]
      exact Or.inl ⟨_, rfl⟩
    · simp only [ne_eq, hvalue, not_false_iff, if_true]
      exact Or.inr ⟨_, _, _, _, rfl⟩

theorem twoPins_diodeCard (node_map : Dict String String) (comp : Models.Component) :
    TwoPins design node_map comp (diodeCard design node_map comp).1 := by
  unfold diodeCard
  split
  · exact Or.inl ⟨_, rfl⟩
  · exact Or.inr ⟨_, _, _, _, rfl⟩

theorem twoPins_componentCard (node_map : Dict String String) (comp : Models.Component) :
    TwoPins design node_map comp (componentCard design node_map comp).1 := by
  unfold componentCard
  split
  · exact twoPins_diodeCard design node_map comp
  · exact twoPins_passiveCard design node_map comp _ _
  · exact Or.inl ⟨_, rfl⟩

theorem node_of_componentCard {node_map : Dict String String} {comp : Models.Component} {card : Card}
    (h : (componentCard design node_map comp).1 = .element card) {t : Terminal}
    (ht : t = card.first ∨ t = card.second) :
    t.node = pinNode design node_map t.ref t.pin_name := by
  rcases twoPins_componentCard design node_map comp with ⟨text, hline⟩ | ⟨name, first, second, value, hline⟩
  · rw [hline] at h
    cases h
  · rw [hline] at h
    obtain rfl := ComponentLine.element.inj h
    rcases ht with rfl | rfl
    · rfl
    · rfl

theorem cards_eq : cards design =
    (sortedComponents design).filterMap fun comp => (componentCard design (buildNodeMap design) comp).1.card? := by
  simp only [cards, componentLines, filterMap_map, Function.comp_def]

theorem names_perm : ((cards design).map Card.name).Perm (design.components.values.filterMap cardName) := by
  have hnames : (cards design).map Card.name = (sortedComponents design).filterMap cardName := by
    rw [cards_eq, map_filterMap]
    apply filterMap_congr
    intro comp _
    exact card?_componentCard design _ comp
  rw [hnames]
  exact (mergeSort_perm _ _).filterMap _

theorem node_eq_of_mem {t : Terminal} (h : t ∈ terminals design) :
    t.node = pinNode design (buildNodeMap design) t.ref t.pin_name := by
  obtain ⟨card, hcard, ht⟩ := mem_flatMap.mp h
  rw [cards_eq] at hcard
  obtain ⟨comp, -, hline⟩ := mem_filterMap.mp hcard
  have helement : (componentCard design (buildNodeMap design) comp).1 = .element card := by
    unfold ComponentLine.card? at hline
    split at hline
    · rename_i heq
      rw [heq, Option.some.inj hline]
    · cases hline
  apply node_of_componentCard design helement
  simpa using ht

/-! ## Nodes -/

theorem nets_of_found {t : Terminal} {net : Models.Net} (h : found design t = some net) : net ∈ design.nets.values :=
  mem_of_find?_eq_some h

theorem eq_zero_of_toLower {c : Char} (h : c.toLower = '0') : c = '0' := by
  unfold Char.toLower at h
  split at h
  · rename_i hupper
    have hval : c.val + ('a'.val - 'A'.val) = '0'.val := congrArg Char.val h
    have hnat := congrArg UInt32.toNat hval
    have hlow : 'A'.val.toNat ≤ c.val.toNat := hupper.1
    have hhigh : c.val.toNat ≤ 'Z'.val.toNat := hupper.2
    rw [UInt32.toNat_add] at hnat
    change 65 ≤ c.val.toNat at hlow
    change c.val.toNat ≤ 90 at hhigh
    change (c.val.toNat + 32) % 2 ^ 32 = 48 at hnat
    omega
  · exact h

theorem eq_zero_of_fold {s : String} (h : fold s = "0") : s = "0" := by
  have hlist : s.toList.map Char.toLower = ['0'] := by
    have hchars := congrArg toList h
    rwa [fold, lower, toList_ofList] at hchars
  obtain ⟨c, hs, hc⟩ := map_eq_singleton_iff.mp hlist
  apply toList_inj.mp
  rw [hs, eq_zero_of_toLower hc]
  rfl

theorem exists_stripUnderscores {c : Char} (h : c ≠ '_') (cs : List Char) :
    ∃ rest, stripUnderscores (c :: cs) = c :: rest := by
  have hhead : (c :: cs).dropWhile (· = '_') = c :: cs := by
    rw [dropWhile_cons, if_neg (by simpa using h)]
  rw [stripUnderscores, hhead, reverse_cons, dropWhile_append]
  split
  · refine ⟨[], ?_⟩
    rw [dropWhile_cons, if_neg (by simpa using h)]
    rfl
  · exact ⟨_, reverse_append⟩

theorem fold_danglingNode_ne (ref pin_name : String) : fold (danglingNode ref pin_name) ≠ "0" := by
  intro h
  have hzero := eq_zero_of_fold h
  obtain ⟨rest, hrest⟩ := exists_stripUnderscores (show 'N' ≠ '_' by decide)
    (("C_" ++ ref ++ "_" ++ pin_name).toList.map fun c => if isWordChar c then c else '_')
  have hlist : stripUnderscores ((s!"NC_{ref}_{pin_name}").toList.map fun c => if isWordChar c then c else '_') =
      'N' :: rest := by
    rw [← hrest]
    simp only [toList_append]
    rfl
  have hne : ofList ('N' :: rest) ≠ "" := by
    intro heq
    have hnil := congrArg toList heq
    rw [toList_ofList] at hnil
    cases hnil
  rw [danglingNode, sanitizeNode, hlist, if_neg hne] at hzero
  have hchars := congrArg toList hzero
  rw [toList_ofList] at hchars
  cases hchars

section Keyed

variable {design} (hkeys : ∀ item ∈ design.nets.items, item.1 = item.2.id)

include hkeys

theorem get?_of_mem_nets {net : Models.Net} (h : net ∈ design.nets.values) : design.nets.get? net.id = some net := by
  obtain ⟨item, hitem, rfl⟩ := mem_map.mp h
  rw [Dict.get?_eq_some_iff, ← hkeys item hitem]
  exact hitem

theorem nodeLabel_of_ground {net : Models.Net} (h : net ∈ design.nets.values) (hground : net.type = .ground) :
    nodeLabel design net = "0" := by
  rw [nodeLabel, (buildNodeMap_spec design).1 net.id net (get?_of_mem_nets hkeys h) hground, Option.getD_some]

theorem get?_nodeLabel {net : Models.Net} (h : net ∈ design.nets.values) (hground : net.type ≠ .ground) :
    (buildNodeMap design).get? net.id = some (nodeLabel design net) ∧ nodeLabel design net ≠ "0" := by
  obtain ⟨label, hlabel, hne⟩ := (buildNodeMap_spec design).2.1 net.id net (get?_of_mem_nets hkeys h) hground
  rw [nodeLabel, hlabel]
  exact ⟨rfl, hne⟩

theorem nodeLabel_ne {net net' : Models.Net} (h : net ∈ design.nets.values) (h' : net' ∈ design.nets.values)
    (hground : net.type ≠ .ground) (hground' : net'.type ≠ .ground) (hid : net.id ≠ net'.id) :
    nodeLabel design net ≠ nodeLabel design net' := by
  intro heq
  obtain ⟨hget, hne⟩ := get?_nodeLabel hkeys h hground
  obtain ⟨hget', -⟩ := get?_nodeLabel hkeys h' hground'
  exact hid ((buildNodeMap_spec design).2.2 _ _ _ hget (heq ▸ hget') hne)

/-- **Two terminals have one node** when they are found on one net or on grounds, or when their nodes collide. -/
theorem fold_node_eq_iff {t t' : Terminal} (ht : t ∈ terminals design) (ht' : t' ∈ terminals design) :
    fold t.node = fold t'.node ↔ SameFound design t t' ∨ Collides design t t' := by
  have hnone : ∀ s ∈ terminals design, found design s = none → s.node = danglingNode s.ref s.pin_name := by
    intro s hs h
    rw [found] at h
    rw [node_eq_of_mem design hs, pinNode, h]
  have hsome : ∀ s ∈ terminals design, ∀ net, found design s = some net → s.node = nodeLabel design net := by
    intro s hs net h
    rw [found] at h
    rw [node_eq_of_mem design hs, pinNode, h, nodeLabel]
  cases h : found design t with
  | none =>
    cases h' : found design t' with
    | none =>
      rw [hnone t ht h, hnone t' ht' h']
      constructor
      · exact fun heq => Or.inr (.dangling h h' heq)
      · rintro (⟨net, net', hnet, -⟩ | ⟨net, net', hnet, -⟩ | ⟨net, hnet, -⟩ | ⟨net, -, hnet', -⟩ | ⟨-, -, heq⟩)
        · rw [h] at hnet
          cases hnet
        · rw [h] at hnet
          cases hnet
        · rw [h] at hnet
          cases hnet
        · rw [h'] at hnet'
          cases hnet'
        · exact heq
    | some net' =>
      rw [hnone t ht h, hsome t' ht' net' h']
      constructor
      · intro heq
        refine Or.inr (.dangling_net net' h h' (fun hground => ?_) heq)
        rw [nodeLabel_of_ground hkeys (nets_of_found design h') hground] at heq
        exact fold_danglingNode_ne _ _ heq
      · rintro (⟨net, net', hnet, -⟩ | ⟨net, net', hnet, -⟩ | ⟨net, hnet, -⟩ | ⟨net, -, hnet', -, heq⟩ | ⟨-, hnet', -⟩)
        · rw [h] at hnet
          cases hnet
        · rw [h] at hnet
          cases hnet
        · rw [h] at hnet
          cases hnet
        · rw [h'] at hnet'
          obtain rfl := Option.some.inj hnet'
          exact heq
        · rw [h'] at hnet'
          cases hnet'
  | some net =>
    cases h' : found design t' with
    | none =>
      rw [hsome t ht net h, hnone t' ht' h']
      constructor
      · intro heq
        refine Or.inr (.net_dangling net h h' (fun hground => ?_) heq)
        rw [nodeLabel_of_ground hkeys (nets_of_found design h) hground] at heq
        exact fold_danglingNode_ne _ _ heq.symm
      · rintro (⟨-, net', -, hnet', -⟩ | ⟨-, net', -, hnet', -⟩ | ⟨net, hnet, -, -, heq⟩ | ⟨net, hnet, -⟩ | ⟨hnet, -⟩)
        · rw [h'] at hnet'
          cases hnet'
        · rw [h'] at hnet'
          cases hnet'
        · rw [h] at hnet
          obtain rfl := Option.some.inj hnet
          exact heq
        · rw [h] at hnet
          cases hnet
        · rw [h] at hnet
          cases hnet
    | some net' =>
      rw [hsome t ht net h, hsome t' ht' net' h']
      have hmem := nets_of_found design h
      have hmem' := nets_of_found design h'
      constructor
      · intro heq
        by_cases hsame : net.id = net'.id ∨ (net.type = .ground ∧ net'.type = .ground)
        · exact Or.inl ⟨net, net', h, h', hsame⟩
        · obtain ⟨hid, hgrounds⟩ := not_or.mp hsame
          -- the label of a ground folds to that of a ground only
          have hzero : ∀ n n', n ∈ design.nets.values → n' ∈ design.nets.values →
              fold (nodeLabel design n) = fold (nodeLabel design n') → n.type = .ground → n'.type = .ground := by
            intro n n' hn hn' heq hground
            by_contra hground'
            rw [nodeLabel_of_ground hkeys hn hground] at heq
            exact (get?_nodeLabel hkeys hn' hground').2 (eq_zero_of_fold heq.symm)
          have hground : net.type ≠ .ground := fun hg => hgrounds ⟨hg, hzero net net' hmem hmem' heq hg⟩
          have hground' : net'.type ≠ .ground := fun hg => hgrounds ⟨hzero net' net hmem' hmem heq.symm hg, hg⟩
          exact Or.inr (.case_twins net net' h h' hground hground'
            (nodeLabel_ne hkeys hmem hmem' hground hground' hid) heq)
      · rintro (⟨n, n', hn, hn', hsame⟩ | ⟨n, n', hn, hn', -, -, -, heq⟩ | ⟨-, -, hn', -⟩ | ⟨-, hn, -⟩ | ⟨hn, -⟩)
        · obtain rfl := Option.some.inj (h.symm.trans hn)
          obtain rfl := Option.some.inj (h'.symm.trans hn')
          rcases hsame with hid | ⟨hg, hg'⟩
          · -- the dictionary has one net for the identifier
            have hnet : net = net' := Option.some.inj
              ((get?_of_mem_nets hkeys hmem).symm.trans (hid ▸ get?_of_mem_nets hkeys hmem'))
            rw [hnet]
          · rw [nodeLabel_of_ground hkeys hmem hg, nodeLabel_of_ground hkeys hmem' hg']
        · obtain rfl := Option.some.inj (h.symm.trans hn)
          obtain rfl := Option.some.inj (h'.symm.trans hn')
          exact heq
        · rw [h'] at hn'
          cases hn'
        · rw [h] at hn
          cases hn
        · rw [h] at hn
          cases hn

omit hkeys in
theorem names_nodup_iff : ((cards design).map fun card => fold card.name).Nodup ↔
    (design.components.values.filterMap cardName).Pairwise fun name name' => fold name ≠ fold name' := by
  have hmap : ((cards design).map fun card => fold card.name) = ((cards design).map Card.name).map fold := by
    rw [map_map]
    rfl
  rw [hmap, ((names_perm design).map fold).nodup_iff]
  exact pairwise_map

end Keyed

/-! ## A net with the name of a pin on no net -/

/-- A resistor of which one pin is on no net. -/
def halfConnected (name : String) : Design where
  components := .ofItems [("r1",
    { id := "r1", ref := "R1", type := "resistor", value := some "10k",
      pins := .ofItems [("1", ⟨"1", .passive, none⟩), ("2", ⟨"2", .passive, none⟩)] })]
  nets := .ofItems [("sig", { id := "sig", name := name, nodes := [⟨"R1", "1"⟩] })]

end ZapTrace.Spice
