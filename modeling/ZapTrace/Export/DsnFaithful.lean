import ZapTrace.Export.Dsn

/-!
# Is a Specctra DSN file faithful?

A node names its component by id or reference, and it names a logical pin; the placement and the images have the ids of
the components and of their pads. So the tokens of the network are pins of the file only when a design says the same
twice. Nor is a padstack that of a pad: it has one layer, it is a rectangle unless the pad is a circle, and it has the
sizes of the first pad with the same name.

## Main results

* `token_eq_iff`: when two pairs have the same token
* `mem_padstacks_iff`: the padstacks are those of the first pads
* `faithful_iff`: a file is faithful exactly when its design is aligned
-/

namespace ZapTrace.Dsn

open Dict hiding set
open String hiding append_assoc length_append map map_map
open List

/-! ## What the design says -/

def logicalPin (component : Fabrication.Component ℚ) (pad : Fabrication.Pad ℚ) : Option String :=
  if component.package_pin_map.items = [] then some pad.id else component.package_pin_map.get? pad.id

def Names (node : Models.NetNode) (component : Fabrication.Component ℚ) : Prop :=
  node.component_ref = component.id ∨ node.component_ref = component.ref

def boardLayers (layer_names : List String) : List String := if layer_names = [] then ["F.Cu", "B.Cu"] else layer_names

def padLayers (layer_names : List String) (pad : Fabrication.Pad ℚ) : List String :=
  if pad.drill.isSome ∨ pad.drill_slot.isSome then boardLayers layer_names
  else
    match pad.layer with
    | .top => (boardLayers layer_names).head?.toList
    | .bottom => (boardLayers layer_names).getLast?.toList
    | .all => boardLayers layer_names
    | .inner => (boardLayers layer_names).tail.dropLast

/-- The figure of a pad, when it is a rectangle or a circle; numbers are written with the resolution of the file. -/
def ownFigure (pad : Fabrication.Pad ℚ) : Option Figure :=
  if pad.shape = .rect ∨ pad.shape = .circle then some (padFigure pad) else none

/-! ## What the file says -/

/-- The padstack of a pad: it has the figure of the pad, on every layer on which the pad exists. -/
def HasPadstack (design : Design) (pad : Fabrication.Pad ℚ) (padstack_name : String) : Prop :=
  ∃ padstack ∈ padstacks design, padstack.name = padstack_name ∧
    (∀ shape ∈ padstack.shapes, ownFigure pad = some shape.figure) ∧
    ∀ layer ∈ padLayers (layerNames design) pad, ∃ shape ∈ padstack.shapes, shape.layer = layer

/-- The file of a design is closed under its references, and it says what the design says. -/
structure Faithful (design : Design) : Prop where
  /-- Every token is a placed name and a pin of the image of that name. -/
  closed : ∀ record ∈ networkNets design, ∀ pin ∈ record.pins, (∃ place ∈ places design, place.name = pin.1) ∧
    ∃ image ∈ images design, image.name = pin.1 ∧ ∃ imagePin ∈ image.pins, imagePin.id = pin.2
  /-- The pads have different tokens. -/
  distinct : ((images design).flatMap fun image => image.pins.map fun pin => token (image.name, pin.id)).Nodup
  /-- Every pad whose logical pin is on a net occurs in that net. -/
  complete : List.Forall₂ (fun net record => record.name = net.name ∧
    ∀ node ∈ net.nodes, ∀ item ∈ withPads design, Names node item.2 → ∀ pad ∈ padsOf item.2,
      logicalPin item.2 pad = some node.pin_name → token (item.1, pad.id) ∈ record.pins.map token)
    design.nets.values (networkNets design)
  /-- Every pad has a pin in the image of its component, with its padstack. -/
  padstack : ∀ item ∈ withPads design, ∃ image ∈ images design, image.name = item.1 ∧
    List.Forall₂ (fun pad pin => pin.id = pad.id ∧ HasPadstack design pad pin.padstack) (padsOf item.2) image.pins

/-! ## Tokens -/

theorem toList_token (pin : String × String) : (token pin).toList = pin.1.toList ++ '-' :: pin.2.toList := by
  show (toString pin.1 ++ toString "-" ++ toString pin.2).toList = _
  rw [toList_append, toList_append, append_assoc]
  rfl

theorem eq_or_of_append {p q : String × String} {rest : List Char} (hq : q.1.toList = p.1.toList ++ rest)
    (hp : '-' :: p.2.toList = rest ++ '-' :: q.2.toList) :
    p = q ∨ ∃ x, q.1 = token (p.1, x) ∧ p.2 = token (x, q.2) := by
  cases rest with
  | nil =>
    left
    have hname : p.1 = q.1 := toList_inj.mp (by rw [hq, append_nil])
    have hpin : p.2 = q.2 := toList_inj.mp (cons.inj hp).2
    exact Prod.ext hname hpin
  | cons c rest =>
    right
    obtain ⟨rfl, hrest⟩ := cons.inj hp
    refine ⟨ofList rest, toList_inj.mp ?_, toList_inj.mp ?_⟩
    · rw [hq, toList_token, toList_ofList]
    · rw [hrest, toList_token, toList_ofList]
      rfl

theorem token_eq_of_join {p q : String × String} {x : String} (hq : q.1 = token (p.1, x)) (hp : p.2 = token (x, q.2)) :
    token p = token q := by
  apply toList_inj.mp
  rw [toList_token, toList_token, hq, hp, toList_token, toList_token, append_assoc]
  rfl

/-- Two pairs have the same token when they are the same, or when one name is the other with a dash and the beginning
of the other's pin. -/
theorem token_eq_iff (p q : String × String) :
    token p = token q ↔ p = q ∨ (∃ x, q.1 = token (p.1, x) ∧ p.2 = token (x, q.2)) ∨
      ∃ x, p.1 = token (q.1, x) ∧ q.2 = token (x, p.2) := by
  constructor
  · intro h
    have hlist := congrArg toList h
    rw [toList_token, toList_token] at hlist
    rcases append_eq_append_iff.mp hlist with ⟨rest, hq, hp⟩ | ⟨rest, hp, hq⟩
    · exact (eq_or_of_append hq hp).imp_right .inl
    · exact (eq_or_of_append hp hq).imp Eq.symm .inr
  · rintro (rfl | ⟨x, hq, hp⟩ | ⟨x, hp, hq⟩)
    · rfl
    · exact token_eq_of_join hq hp
    · exact (token_eq_of_join hp hq).symm

/-! ## Padstacks -/

def firstPad (design : Design) (padstack_name : String) : Option (Fabrication.Pad ℚ) :=
  (allPads design).find? fun pad => padstackName pad (padLayerName pad (layerNames design)) = padstack_name

theorem get?_padstackEntries (layer_names : List String) (pads : List (Fabrication.Pad ℚ)) (padstack_name : String) :
    (padstackEntries layer_names pads).get? padstack_name =
      (pads.find? fun pad => padstackName pad (padLayerName pad layer_names) = padstack_name).map fun pad =>
        (pad, padLayerName pad layer_names) := by
  have hfold : padstackEntries layer_names pads =
      (pads.map fun pad => (padstackName pad (padLayerName pad layer_names), pad, padLayerName pad layer_names)).foldl
        (fun d item => if item.1 ∈ d.keys then d else d.set item.1 item.2) empty := by
    rw [foldl_map]
    rfl
  rw [hfold, get?_foldl_setDefault Prod.snd, Table.find, find?_map, Option.map_map, get?_empty,
    Option.none_or]
  simp only [Function.comp_def]

/-- The padstacks are those of the first pads with their names. -/
theorem mem_padstacks_iff {design : Design} {padstack : Padstack} :
    padstack ∈ padstacks design ↔ ∃ pad, firstPad design padstack.name = some pad ∧
      padstack.shapes = [padstackShape pad (padLayerName pad (layerNames design))] := by
  rw [padstacks, mem_map]
  constructor
  · rintro ⟨item, hitem, rfl⟩
    have hget := get?_eq_some_iff.mpr hitem
    rw [get?_padstackEntries] at hget
    obtain ⟨pad, hpad, hentry⟩ := Option.map_eq_some_iff.mp hget
    exact ⟨pad, hpad, by rw [← hentry]⟩
  · rintro ⟨pad, hpad, hshapes⟩
    refine ⟨(padstack.name, pad, padLayerName pad (layerNames design)), get?_eq_some_iff.mp ?_, ?_⟩
    · rw [get?_padstackEntries]
      exact Option.map_eq_some_iff.mpr ⟨pad, hpad, rfl⟩
    · cases padstack
      exact congrArg _ hshapes.symm

theorem hasPadstack_iff (design : Design) (pad : Fabrication.Pad ℚ) (padstack_name : String) :
    HasPadstack design pad padstack_name ↔ ∃ first, firstPad design padstack_name = some first ∧
      ownFigure pad = some (padFigure first) ∧
      ∀ layer ∈ padLayers (layerNames design) pad, layer = padLayerName first (layerNames design) := by
  constructor
  · rintro ⟨padstack, hmem, rfl, hfigure, hlayers⟩
    obtain ⟨first, hfirst, hshapes⟩ := mem_padstacks_iff.mp hmem
    rw [hshapes] at hfigure hlayers
    refine ⟨first, hfirst, hfigure _ (mem_singleton_self _), fun layer hlayer => ?_⟩
    obtain ⟨shape, hshape, heq⟩ := hlayers layer hlayer
    rw [← heq, mem_singleton.mp hshape]
    rfl
  · rintro ⟨first, hfirst, hfigure, hlayers⟩
    refine ⟨⟨padstack_name, [padstackShape first (padLayerName first (layerNames design))]⟩,
      mem_padstacks_iff.mpr ⟨first, hfirst, rfl⟩, rfl, ?_, fun layer hlayer => ?_⟩
    · intro shape hshape
      rw [mem_singleton.mp hshape]
      exact hfigure
    · exact ⟨_, mem_singleton_self _, (hlayers layer hlayer).symm⟩

/-! ## Aligned designs -/

/-- The names, the shapes and the layers of a design are those that the writer takes for granted. -/
structure Aligned (design : Design) : Prop where
  /-- A node is a pad: it has the id of a component and the id of a pad of it. -/
  nodes : ∀ net ∈ design.nets.values, ∀ node ∈ net.nodes, ∃ item ∈ withPads design, item.1 = node.component_ref ∧
    ∃ pad ∈ padsOf item.2, pad.id = node.pin_name
  /-- With a logical pin, a net has every pad of it. -/
  pins : ∀ net ∈ design.nets.values, ∀ node ∈ net.nodes, ∀ item ∈ withPads design, Names node item.2 →
    ∀ pad ∈ padsOf item.2, logicalPin item.2 pad = some node.pin_name → ⟨item.1, pad.id⟩ ∈ net.nodes
  /-- The pads of a component have different ids. -/
  ids : ∀ item ∈ withPads design, ((padsOf item.2).map Fabrication.Pad.id).Nodup
  /-- What a component's id has after another's and a dash, no pad of the other begins with. -/
  dashes : ∀ item ∈ withPads design, ∀ item' ∈ withPads design, ∀ x, item'.1 = token (item.1, x) →
    ∀ pad ∈ padsOf item.2, ∀ pad' ∈ padsOf item'.2, pad.id ≠ token (x, pad'.id)
  /-- A pad is a rectangle or a circle, with the figure of the first pad with the same name of a padstack, and it is on
  no other layer than that one. -/
  padstack : ∀ item ∈ withPads design, ∀ pad ∈ padsOf item.2, ∀ first,
    firstPad design (padstackName pad (padLayerName pad (layerNames design))) = some first →
      (pad.shape = .rect ∨ pad.shape = .circle) ∧ padFigure pad = padFigure first ∧
      ∀ layer ∈ padLayers (layerNames design) pad, layer = padLayerName first (layerNames design)

variable {design : Design}

theorem keyed_withPads (design : Design) : Table.Keyed Prod.fst (withPads design) := design.components.keyed.filter _

theorem closed_iff :
    (∀ record ∈ networkNets design, ∀ pin ∈ record.pins, (∃ place ∈ places design, place.name = pin.1) ∧
      ∃ image ∈ images design, image.name = pin.1 ∧ ∃ imagePin ∈ image.pins, imagePin.id = pin.2) ↔
      ∀ net ∈ design.nets.values, ∀ node ∈ net.nodes, ∃ item ∈ withPads design, item.1 = node.component_ref ∧
        ∃ pad ∈ padsOf item.2, pad.id = node.pin_name := by
  constructor
  · intro h net hnet node hnode
    have hpin : (node.component_ref, node.pin_name) ∈ (netRecord net).pins := mem_map_of_mem hnode
    obtain ⟨-, image, himage, hname, imagePin, hmem, hid⟩ := h _ (mem_map_of_mem hnet) _ hpin
    obtain ⟨item, hitem, rfl⟩ := mem_map.mp himage
    obtain ⟨pad, hpad, rfl⟩ := mem_map.mp hmem
    exact ⟨item, hitem, hname, pad, hpad, hid⟩
  · intro h record hrecord pin hpin
    obtain ⟨net, hnet, rfl⟩ := mem_map.mp hrecord
    obtain ⟨node, hnode, rfl⟩ := mem_map.mp hpin
    obtain ⟨item, hitem, hname, pad, hpad, hid⟩ := h net hnet node hnode
    exact ⟨⟨_, mem_map_of_mem hitem, hname⟩, _, mem_map_of_mem hitem, hname, _, mem_map_of_mem hpad, hid⟩

theorem token_right_injective (name : String) : Function.Injective fun pin => token (name, pin) := by
  intro pin pin' h
  have hlist := congrArg toList h
  rw [toList_token, toList_token] at hlist
  exact toList_inj.mp (cons.inj (append_cancel_left hlist)).2

/-- The tokens of the pads are different when the ids are, and no dash makes two pairs the same. -/
theorem distinct_iff :
    ((images design).flatMap fun image => image.pins.map fun pin => token (image.name, pin.id)).Nodup ↔
      (∀ item ∈ withPads design, ((padsOf item.2).map Fabrication.Pad.id).Nodup) ∧
      ∀ item ∈ withPads design, ∀ item' ∈ withPads design, ∀ x, item'.1 = token (item.1, x) →
        ∀ pad ∈ padsOf item.2, ∀ pad' ∈ padsOf item'.2, pad.id ≠ token (x, pad'.id) := by
  have htokens : (images design).flatMap (fun image => image.pins.map fun pin => token (image.name, pin.id)) =
      (withPads design).flatMap fun item => ((padsOf item.2).map Fabrication.Pad.id).map fun id => token (item.1, id) := by
    rw [images, flatMap_map]
    simp only [map_map]
    rfl
  rw [htokens, nodup_flatMap]
  refine and_congr (forall₂_congr fun item _ => nodup_map_iff (token_right_injective item.1)) ?_
  constructor
  · intro hdisjoint item hitem item' hitem' x hx pad hpad pad' hpad' hid
    have hne : item ≠ item' := by
      rintro rfl
      have hlength := congrArg (fun s => s.toList.length) hx
      simp only [toList_token, length_append, length_cons] at hlength
      omega
    have hsym : Std.Symm (Function.onFun List.Disjoint fun item : String × Fabrication.Component ℚ =>
        ((padsOf item.2).map Fabrication.Pad.id).map fun id => token (item.1, id)) := ⟨fun _ _ h => h.symm⟩
    refine hdisjoint.forall hitem hitem' hne
      (mem_map_of_mem (mem_map_of_mem hpad)) ?_
    have htoken : token (item.1, pad.id) = token (item'.1, pad'.id) := token_eq_of_join hx hid
    show token (item.1, pad.id) ∈ _
    rw [htoken]
    exact @mem_map_of_mem _ _ _ _ (fun id => token (item'.1, id)) (mem_map_of_mem hpad')
  · intro hdashes
    refine (keyed_withPads design).imp_of_mem fun {item item'} hitem hitem' hne => ?_
    intro text htext htext'
    obtain ⟨id, hid, rfl⟩ := mem_map.mp htext
    obtain ⟨id', hid', htoken⟩ := mem_map.mp htext'
    obtain ⟨pad, hpad, rfl⟩ := mem_map.mp hid
    obtain ⟨pad', hpad', rfl⟩ := mem_map.mp hid'
    rcases (token_eq_iff _ _).mp htoken with heq | ⟨x, hx, hpin⟩ | ⟨x, hx, hpin⟩
    · exact hne (congrArg Prod.fst heq).symm
    · exact hdashes item' hitem' item hitem x hx pad' hpad' pad hpad hpin
    · exact hdashes item hitem item' hitem' x hx pad hpad pad' hpad' hpin

theorem eq_of_token_eq (hids : ∀ item ∈ withPads design, ∀ item' ∈ withPads design, ∀ x, item'.1 = token (item.1, x) →
      ∀ pad ∈ padsOf item.2, ∀ pad' ∈ padsOf item'.2, pad.id ≠ token (x, pad'.id))
    {item item' : String × Fabrication.Component ℚ} (hitem : item ∈ withPads design) (hitem' : item' ∈ withPads design)
    {pad pad' : Fabrication.Pad ℚ} (hpad : pad ∈ padsOf item.2) (hpad' : pad' ∈ padsOf item'.2)
    (h : token (item.1, pad.id) = token (item'.1, pad'.id)) : item.1 = item'.1 ∧ pad.id = pad'.id := by
  rcases (token_eq_iff _ _).mp h with heq | ⟨x, hx, hpin⟩ | ⟨x, hx, hpin⟩
  · exact Prod.mk.inj heq
  · exact absurd hpin (hids item hitem item' hitem' x hx pad hpad pad' hpad')
  · exact absurd hpin (hids item' hitem' item hitem x hx pad' hpad' pad hpad)

/-- Where tokens are those of pads, and different pads have different ones, a net has a pad's token when it has the
pad as a node. -/
theorem complete_iff
    (hnodes : ∀ net ∈ design.nets.values, ∀ node ∈ net.nodes, ∃ item ∈ withPads design, item.1 = node.component_ref ∧
      ∃ pad ∈ padsOf item.2, pad.id = node.pin_name)
    (hids : ∀ item ∈ withPads design, ∀ item' ∈ withPads design, ∀ x, item'.1 = token (item.1, x) →
      ∀ pad ∈ padsOf item.2, ∀ pad' ∈ padsOf item'.2, pad.id ≠ token (x, pad'.id)) :
    List.Forall₂ (fun net record => record.name = net.name ∧
      ∀ node ∈ net.nodes, ∀ item ∈ withPads design, Names node item.2 → ∀ pad ∈ padsOf item.2,
        logicalPin item.2 pad = some node.pin_name → token (item.1, pad.id) ∈ record.pins.map token)
      design.nets.values (networkNets design) ↔
      ∀ net ∈ design.nets.values, ∀ node ∈ net.nodes, ∀ item ∈ withPads design, Names node item.2 →
        ∀ pad ∈ padsOf item.2, logicalPin item.2 pad = some node.pin_name → ⟨item.1, pad.id⟩ ∈ net.nodes := by
  rw [networkNets, forall₂_map_right_iff, forall₂_same]
  refine forall₂_congr fun net hnet => (and_iff_right rfl).trans ?_
  refine forall₂_congr fun node _ => forall₂_congr fun item hitem => forall_congr' fun _ => forall₂_congr
    fun pad hpad => forall_congr' fun _ => ?_
  constructor
  · intro h
    obtain ⟨pin, hpin, htoken⟩ := mem_map.mp h
    obtain ⟨node', hnode', rfl⟩ := mem_map.mp hpin
    obtain ⟨item', hitem', hname, pad', hpad', hid⟩ := hnodes net hnet node' hnode'
    rw [← hname, ← hid] at htoken
    obtain ⟨hname', hid'⟩ := eq_of_token_eq hids hitem' hitem hpad' hpad htoken
    have heq : node' = ⟨item.1, pad.id⟩ := by
      cases node'
      rw [← hname', ← hid', hname, hid]
    exact heq ▸ hnode'
  · intro h
    exact mem_map_of_mem (mem_map.mpr ⟨_, h, rfl⟩)

theorem padstack_iff :
    (∀ item ∈ withPads design, ∃ image ∈ images design, image.name = item.1 ∧
      List.Forall₂ (fun pad pin => pin.id = pad.id ∧ HasPadstack design pad pin.padstack) (padsOf item.2) image.pins) ↔
      ∀ item ∈ withPads design, ∀ pad ∈ padsOf item.2, ∀ first,
        firstPad design (padstackName pad (padLayerName pad (layerNames design))) = some first →
          (pad.shape = .rect ∨ pad.shape = .circle) ∧ padFigure pad = padFigure first ∧
          ∀ layer ∈ padLayers (layerNames design) pad, layer = padLayerName first (layerNames design) := by
  refine forall₂_congr fun item hitem => ?_
  have himage : (∃ image ∈ images design, image.name = item.1 ∧
      List.Forall₂ (fun pad pin => pin.id = pad.id ∧ HasPadstack design pad pin.padstack) (padsOf item.2) image.pins) ↔
      ∀ pad ∈ padsOf item.2, HasPadstack design pad (padstackName pad (padLayerName pad (layerNames design))) := by
    have hpins : ∀ image : Image, image.pins = (padsOf item.2).map (imagePin (layerNames design)) →
        (List.Forall₂ (fun pad pin => pin.id = pad.id ∧ HasPadstack design pad pin.padstack) (padsOf item.2) image.pins ↔
          ∀ pad ∈ padsOf item.2, HasPadstack design pad (padstackName pad (padLayerName pad (layerNames design)))) := by
      intro image himage
      rw [himage, forall₂_map_right_iff, forall₂_same]
      exact forall₂_congr fun pad _ => and_iff_right rfl
    constructor
    · rintro ⟨image, hmem, hname, hforall⟩
      obtain ⟨item', hitem', rfl⟩ := mem_map.mp hmem
      obtain rfl : item' = item := (keyed_withPads design).eq hitem' hitem hname
      exact (hpins _ rfl).mp hforall
    · intro h
      exact ⟨_, mem_map_of_mem hitem, rfl, (hpins _ rfl).mpr h⟩
  rw [himage]
  refine forall₂_congr fun pad hpad => ?_
  have hall : pad ∈ allPads design := mem_flatMap.mpr ⟨item, hitem, hpad⟩
  -- the pad itself has the name, so there is a first one
  obtain ⟨first, hfirst⟩ : ∃ first,
      firstPad design (padstackName pad (padLayerName pad (layerNames design))) = some first :=
    Option.isSome_iff_exists.mp (find?_isSome.mpr ⟨pad, hall, by simp⟩)
  have hfigure : ownFigure pad = some (padFigure first) ↔
      (pad.shape = .rect ∨ pad.shape = .circle) ∧ padFigure pad = padFigure first := by
    unfold ownFigure
    split
    · rename_i hshape
      simp [hshape]
    · rename_i hshape
      simp [hshape]
  rw [hasPadstack_iff, hfirst]
  simp only [Option.some.injEq, exists_eq_left', forall_eq', hfigure, and_assoc]

/-- **Faithful files**: the file of a design is closed under its references and says what the design says exactly when
the design is aligned. -/
theorem faithful_iff (design : Design) : Faithful design ↔ Aligned design := by
  constructor
  · rintro ⟨hclosed, hdistinct, hcomplete, hpadstack⟩
    have hnodes := closed_iff.mp hclosed
    obtain ⟨hids, hdashes⟩ := distinct_iff.mp hdistinct
    exact ⟨hnodes, (complete_iff hnodes hdashes).mp hcomplete, hids, hdashes, padstack_iff.mp hpadstack⟩
  · rintro ⟨hnodes, hpins, hids, hdashes, hpadstack⟩
    exact ⟨closed_iff.mpr hnodes, distinct_iff.mpr ⟨hids, hdashes⟩, (complete_iff hnodes hdashes).mpr hpins,
      padstack_iff.mpr hpadstack⟩

/-- Every component has pads, and every node names a component and a logical pin of it. -/
structure Described (design : Design) : Prop where
  pads : ∀ item ∈ design.components.items, padsOf item.2 ≠ []
  nodes : ∀ net ∈ design.nets.values, ∀ node ∈ net.nodes, ∃ item ∈ design.components.items, Names node item.2 ∧
    ∃ pad ∈ padsOf item.2, logicalPin item.2 pad = some node.pin_name

/-- A resistor with one pad, and a net that names it by its reference designator. -/
def byReference : Design where
  name := "board"
  components := empty.set "u1" ⟨"u1", "R1", some ⟨[⟨"1", .top, .rect, (0, 0), (1, 1), none, none, true, 0⟩]⟩,
    empty, none, some (0, 0)⟩
  nets := empty.set "n1" ⟨"n1", "N1", .signal, [⟨"R1", "1"⟩]⟩

/-- The token `R1-1` is not a pin of the file: the component is placed as `u1`. -/
theorem not_faithful_byReference : Described byReference ∧ ¬ Faithful byReference := by
  refine ⟨⟨?_, ?_⟩, fun h => ?_⟩
  · simp [byReference, Dict.set, Table.upsert, Table.find, empty, padsOf]
  · simp [byReference, Dict.set, Table.upsert, Table.find, empty, values, padsOf, Names, logicalPin]
  · have hrecord : netRecord ⟨"n1", "N1", .signal, [⟨"R1", "1"⟩]⟩ ∈ networkNets byReference :=
      mem_singleton_self _
    obtain ⟨place, hplace, hname⟩ := (h.closed _ hrecord ("R1", "1") (mem_singleton_self _)).1
    have hplaces : (places byReference).map Place.name = ["u1"] := rfl
    have hmem : place.name ∈ ["u1"] := hplaces ▸ mem_map_of_mem hplace
    rw [hname] at hmem
    revert hmem
    decide

end ZapTrace.Dsn
