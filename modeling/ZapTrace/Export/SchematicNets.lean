import Mathlib.Tactic.Linarith
import Mathlib.Tactic.Tauto
import ZapTrace.Export.Schematic

/-!
# The nets of the schematic

Two pins of a schematic are connected along pins whose labels have one text or whose wires meet. Wires meet only
in one row of the grid, when they are at one height and close to each other. The labels show the name of the
first net that lists a pin.

## Main results

* `connected_iff`: which pins are connected
* `netlistKept_iff`: the designs with a schematic that keeps the nets
-/

namespace ZapTrace.Kicad

open List hiding getElem?_eq_some_iff map_map
open Element Option

/-! ## The logical pins of symbol pins -/

/-- The logical pins of a component that nets list, in the order of the symbol pins. -/
def listedPins (design : Design) (component : Component) : List String :=
  ((netNodes design.nets.values).foldl (addNode component) ([], [])).2

/-- The logical pins of the symbol pins of a component, with the physical pads. -/
def nodePins (design : Design) (component : Component) : List (String × String) :=
  (listedPins design component).flatMap fun pin_name => (symbolPins component pin_name).map fun pad => (pin_name, pad)

def labelName (design : Design) (component : Component) (pin_name : String) : String :=
  ((firstNet design.nets.values component pin_name).map Models.Net.name).getD ""

/-- After any nodes, the symbol pins are those of the logical pins seen, in the same order. -/
theorem foldl_addNode_eq (component : Component) (entries : List (Models.Net × Models.NetNode)) :
    (entries.foldl (addNode component) ([], [])).1 =
      (entries.foldl (addNode component) ([], [])).2.flatMap fun pin_name =>
        (symbolPins component pin_name).map fun pad =>
          (pad, ((entries.find? fun entry => component.Named entry.2 pin_name).map fun entry => entry.1.name).getD "") := by
  induction entries using reverseRecOn with
  | nil => rfl
  | append_singleton entries entry ih =>
    have hseen := (foldl_addNode component entries).1
    rw [foldl_concat]
    generalize entries.foldl (addNode component) ([], []) = state at *
    -- the pins that were seen keep their nets
    have hold : (state.2.flatMap fun pin_name => (symbolPins component pin_name).map fun pad =>
        (pad, (((entries ++ [entry]).find? fun entry => component.Named entry.2 pin_name).map
          fun entry => entry.1.name).getD "")) = state.1 := by
      rw [ih, flatMap_def, flatMap_def]
      refine congrArg flatten (map_congr_left fun pin_name hmem => ?_)
      obtain ⟨other, hother, hnamed⟩ := (hseen pin_name).mp hmem
      have hsome : (entries.find? fun entry => component.Named entry.2 pin_name).isSome :=
        find?_isSome.mpr ⟨other, hother, decide_eq_true hnamed⟩
      rw [find?_append, or_of_isSome hsome]
    unfold addNode
    split
    · exact hold.symm
    · rename_i hadd
      obtain ⟨hcomponent, hnew⟩ := not_or.mp hadd
      rw [not_not] at hcomponent
      have hnone : (entries.find? fun other => component.Named other.2 entry.2.pin_name) = none := by
        rw [find?_eq_none]
        intro other hother hnamed
        exact hnew ((hseen _).mpr ⟨other, hother, of_decide_eq_true hnamed⟩)
      have hentry : component.Named entry.2 entry.2.pin_name := ⟨hcomponent, rfl⟩
      dsimp only
      rw [flatMap_append, hold, flatMap_singleton, find?_append, hnone, none_or,
        find?_cons_of_pos (by simpa using hentry)]
      rfl

theorem schematicNodes_eq (design : Design) (component : Component) :
    schematicNodesForComponent design component =
      (nodePins design component).map fun (pin_name, pad) => (pad, labelName design component pin_name) := by
  unfold schematicNodesForComponent nodePins listedPins
  rw [foldl_addNode_eq, map_flatMap]
  simp only [List.map_map, Function.comp_def, labelName, ← map_find?_netNodes, map_map]

variable {design : Design} {component : Component}

theorem exists_net_of_mem_nodePins {pin_name pad : String} (h : (pin_name, pad) ∈ nodePins design component) :
    ∃ net ∈ design.nets.values, Lists component pin_name net := by
  obtain ⟨listed, hlisted, hpad⟩ := mem_flatMap.mp h
  obtain ⟨pad', -, heq⟩ := mem_map.mp hpad
  cases heq
  obtain ⟨entry, hentry, hnamed⟩ := ((foldl_addNode component _).1 pin_name).mp hlisted
  obtain ⟨net, hnet, hnode⟩ := mem_flatMap.mp hentry
  obtain ⟨node, hmem, rfl⟩ := mem_map.mp hnode
  exact ⟨net, hnet, node, hmem, hnamed⟩

/-- The component and the logical pin of a symbol pin, by the indices of both. -/
def pinOf (design : Design) (slot : ℕ × ℕ) : Option (Component × String) :=
  design.components.values[slot.1]?.bind fun component =>
    (nodePins design component)[slot.2]?.map fun (pin_name, _) => (component, pin_name)

theorem pinOf_eq_some_iff {slot : ℕ × ℕ} {pin_name : String} :
    pinOf design slot = some (component, pin_name) ↔ design.components.values[slot.1]? = some component ∧
      ∃ pad, (nodePins design component)[slot.2]? = some (pin_name, pad) := by
  unfold pinOf
  rw [bind_eq_some_iff]
  constructor
  · rintro ⟨component', hcomponent, hpin⟩
    obtain ⟨⟨pin_name', pad⟩, hpin, heq⟩ := map_eq_some_iff.mp hpin
    cases heq
    exact ⟨hcomponent, pad, hpin⟩
  · rintro ⟨hcomponent, pad, hpin⟩
    exact ⟨component, hcomponent, map_eq_some_iff.mpr ⟨(pin_name, pad), hpin, rfl⟩⟩

variable {row_spacing : ℤ} {stub : Wire × GlobalLabel} {columns : ℕ}

theorem stubOf_eq_some_iff_pinOf {slot : ℕ × ℕ} :
    stubOf design columns row_spacing slot.1 slot.2 = some stub ↔
      ∃ component pin_name, pinOf design slot = some (component, pin_name) ∧
        labelStub component (schematicNodesForComponent design component)
          (schematicComponentPosition slot.1 columns row_spacing) slot.2 (labelName design component pin_name) = stub := by
  rw [stubOf_eq_some_iff]
  simp only [pinOf_eq_some_iff]
  constructor
  · rintro ⟨component, nodes, node, hcomponent, hnode, rfl⟩
    rw [componentNodes, getElem?_map] at hcomponent
    obtain ⟨component', hvalue, heq⟩ := map_eq_some_iff.mp hcomponent
    cases heq
    rw [schematicNodes_eq, getElem?_map] at hnode
    obtain ⟨⟨pin_name, pad⟩, hpin, rfl⟩ := map_eq_some_iff.mp hnode
    exact ⟨component, pin_name, ⟨hvalue, pad, hpin⟩, rfl⟩
  · rintro ⟨component, pin_name, ⟨hcomponent, pad, hpin⟩, rfl⟩
    refine ⟨component, schematicNodesForComponent design component, (pad, labelName design component pin_name), ?_, ?_,
      rfl⟩
    · rw [componentNodes, getElem?_map, hcomponent, map_some]
    · rw [schematicNodes_eq, getElem?_map, hpin, map_some]

/-! ## Where wires meet -/

/-- How high a pin is over the middle of its symbol, in half rows of pins. -/
def pinHeight (k pin_count : ℕ) : ℤ := pinRows pin_count - 1 - 2 * (k / 2 : ℕ)

/-- The left end of the wire of a pin, from the first column of the grid. -/
def stubLeft (column k : ℕ) (half_width : ℤ) : ℤ :=
  column * 8890 + if k % 2 = 0 then -half_width - 1016 else half_width + 254

/-- The wires of two pins meet: they are in one row of the grid and at one height, and the ends are at most one
wire apart. -/
def StubsMeet (design : Design) (columns : ℕ) (a b : ℕ × ℕ) (component component' : Component) : Prop :=
  a.1 / columns = b.1 / columns ∧
    pinHeight a.2 (schematicNodesForComponent design component).length =
      pinHeight b.2 (schematicNodesForComponent design component').length ∧
    |stubLeft (a.1 % columns) a.2 (symbolHalfWidth component (schematicNodesForComponent design component)) -
      stubLeft (b.1 % columns) b.2 (symbolHalfWidth component' (schematicNodesForComponent design component'))| ≤ 762

theorem symbolHalfWidth_pos (component : Component) (nodes : List (String × String)) :
    0 < symbolHalfWidth component nodes := by
  have hbody : 1397 ≤ (schematicGeometry nodes).1 := le_max_left _ _
  unfold symbolHalfWidth
  dsimp only
  split
  · omega
  · exact lt_of_lt_of_le (by omega) (le_max_left _ _)

variable {p : Position}

theorem covers_labelStub_iff {nodes : List (String × String)} {i k columns : ℕ} {net_name : String} :
    (wire (labelStub component nodes (schematicComponentPosition i columns row_spacing) k net_name).1.start
      (labelStub component nodes (schematicComponentPosition i columns row_spacing) k net_name).1.stop).Covers p ↔
      (5080 + stubLeft (i % columns) k (symbolHalfWidth component nodes) ≤ p.1 ∧
        p.1 ≤ 5080 + stubLeft (i % columns) k (symbolHalfWidth component nodes) + 762) ∧
      p.2 = 5080 + (i / columns : ℕ) * row_spacing - pinHeight k nodes.length * 254 := by
  have hpos := symbolHalfWidth_pos component nodes
  unfold labelStub schematicPinGeometry schematicComponentPosition stubLeft pinHeight Element.Covers
  dsimp only
  generalize symbolHalfWidth component nodes = half_width at *
  rw [min_self, max_self, ← le_antisymm_iff, eq_comm (b := p.2)]
  refine and_congr ?_ Iff.rfl
  by_cases hleft : k % 2 = 0
  · rw [if_pos hleft, if_pos hleft, if_pos (by omega)]
    omega
  · rw [if_neg hleft, if_neg hleft, if_neg (by omega)]
    omega

theorem le_foldl_max {xs : List ℕ} {n : ℕ} : ∀ {m : ℕ}, n ∈ xs ∨ n ≤ m → n ≤ xs.foldl max m := by
  induction xs with
  | nil => exact fun h => h.resolve_left not_mem_nil
  | cons x xs ih =>
    intro m h
    apply ih
    rcases h with h | h
    · rcases mem_cons.mp h with rfl | h
      · exact .inr (le_max_right _ _)
      · exact .inl h
    · exact .inr (h.trans (le_max_left _ _))

theorem length_le_maxPins (h : component ∈ design.components.values) :
    (schematicNodesForComponent design component).length ≤ maxPins design := by
  apply le_foldl_max
  refine .inl (mem_map.mpr ⟨(component, schematicNodesForComponent design component), ?_, rfl⟩)
  exact mem_map.mpr ⟨component, h, rfl⟩

theorem rows_of_layout {component_count max_pins : ℕ} {page : String}
    (h : schematicPageLayout component_count max_pins = .ok (page, columns, row_spacing)) :
    pinRows max_pins * 508 + 2286 ≤ row_spacing := by
  rw [pageLayout_eq_ok h]
  exact le_max_right _ _

theorem pinHeight_mem {k pin_count max_pins : ℕ} (hk : k < pin_count) (hmax : pin_count ≤ max_pins) :
    -(pinRows max_pins - 1) ≤ pinHeight k pin_count ∧ pinHeight k pin_count ≤ pinRows max_pins - 1 := by
  unfold pinHeight pinRows
  omega

variable {a b : ℕ × ℕ}

/-- The wires of two pins share a point when they meet. -/
theorem exists_covers_iff {page : String}
    (hlayout : schematicPageLayout (componentNodes design).length (maxPins design) = .ok (page, columns, row_spacing))
    {component component' : Component} {pin_name pin_name' : String} (ha : pinOf design a = some (component, pin_name))
    (hb : pinOf design b = some (component', pin_name')) (net_name net_name' : String) :
    (∃ p, (wire (labelStub component (schematicNodesForComponent design component)
        (schematicComponentPosition a.1 columns row_spacing) a.2 net_name).1.start
      (labelStub component (schematicNodesForComponent design component)
        (schematicComponentPosition a.1 columns row_spacing) a.2 net_name).1.stop).Covers p ∧
      (wire (labelStub component' (schematicNodesForComponent design component')
        (schematicComponentPosition b.1 columns row_spacing) b.2 net_name').1.start
      (labelStub component' (schematicNodesForComponent design component')
        (schematicComponentPosition b.1 columns row_spacing) b.2 net_name').1.stop).Covers p) ↔
      StubsMeet design columns a b component component' := by
  have hheight : ∀ {slot : ℕ × ℕ} {part : Component} {pin : String}, pinOf design slot = some (part, pin) →
      -(pinRows (maxPins design) - 1) ≤ pinHeight slot.2 (schematicNodesForComponent design part).length ∧
        pinHeight slot.2 (schematicNodesForComponent design part).length ≤ pinRows (maxPins design) - 1 := by
    intro slot part pin hslot
    obtain ⟨hpart, pad, hpin⟩ := pinOf_eq_some_iff.mp hslot
    refine pinHeight_mem ?_ (length_le_maxPins (mem_of_getElem? hpart))
    rw [schematicNodes_eq, length_map]
    exact (List.getElem?_eq_some_iff.mp hpin).1
  have hspacing := rows_of_layout hlayout
  have hheight_a := hheight ha
  have hheight_b := hheight hb
  simp only [covers_labelStub_iff]
  unfold StubsMeet
  generalize pinHeight a.2 _ = height_a at *
  generalize pinHeight b.2 _ = height_b at *
  generalize stubLeft (a.1 % columns) _ _ = left_a
  generalize stubLeft (b.1 % columns) _ _ = left_b
  generalize a.1 / columns = row_a
  generalize b.1 / columns = row_b
  constructor
  · rintro ⟨p, ⟨⟨hleft_a, hright_a⟩, hy_a⟩, ⟨hleft_b, hright_b⟩, hy_b⟩
    have hy : ((row_a : ℤ) - row_b) * row_spacing = (height_a - height_b) * 254 := by linarith
    -- pins of different rows of the grid are at different heights
    have hrows : (row_a : ℤ) = row_b := by
      rcases lt_trichotomy (row_a : ℤ) row_b with hlt | heq | hgt
      · nlinarith
      · exact heq
      · nlinarith
    refine ⟨by exact_mod_cast hrows, ?_, ?_⟩
    · rw [hrows, sub_self, zero_mul] at hy
      omega
    · rw [abs_le]
      constructor
      · omega
      · omega
  · rintro ⟨rfl, rfl, hnear⟩
    obtain ⟨hge, hle⟩ := abs_le.mp hnear
    refine ⟨(5080 + max left_a left_b, 5080 + row_a * row_spacing - height_a * 254), ⟨?_, rfl⟩, ?_, rfl⟩
    · dsimp only
      omega
    · dsimp only
      omega

/-! ## The text of a label -/

theorem escapedChar_append_inj {c d : Char} {xs ys : List Char} (h : escapedChar c ++ xs = escapedChar d ++ ys) :
    c = d ∧ xs = ys := by
  unfold escapedChar at h
  split at h
  · rename_i hc
    split at h
    · rename_i hd
      simp only [cons_append, nil_append, cons.injEq, true_and] at h
      exact ⟨hc.trans hd.symm, h⟩
    · split at h
      · simp at h
      · rename_i hd _
        simp only [cons_append, nil_append, cons.injEq] at h
        exact absurd h.1.symm hd
  · rename_i hc
    split at h
    · rename_i hquote
      split at h
      · simp at h
      · split at h
        · rename_i hd
          simp only [cons_append, nil_append, cons.injEq, true_and] at h
          exact ⟨hquote.trans hd.symm, h⟩
        · rename_i hd _
          simp only [cons_append, nil_append, cons.injEq] at h
          exact absurd h.1.symm hd
    · split at h
      · simp only [cons_append, nil_append, cons.injEq] at h
        exact absurd h.1 hc
      · split at h
        · simp only [cons_append, nil_append, cons.injEq] at h
          exact absurd h.1 hc
        · simp only [cons_append, nil_append, cons.injEq] at h
          exact h

theorem escapedChar_append_ne_nil (c : Char) (xs : List Char) : escapedChar c ++ xs ≠ [] := by
  unfold escapedChar
  split
  · simp
  · split <;> simp

theorem schematicString_inj {value value' : String} : schematicString value = schematicString value' ↔ value = value' := by
  constructor
  · intro h
    have hlists := String.ofList_injective h
    rw [← String.toList_inj]
    generalize value.toList = xs at hlists ⊢
    generalize value'.toList = ys at hlists ⊢
    induction xs generalizing ys with
    | nil =>
      cases ys with
      | nil => rfl
      | cons d ys =>
        rw [flatMap_nil, flatMap_cons] at hlists
        exact absurd hlists.symm (escapedChar_append_ne_nil d _)
    | cons c xs ih =>
      cases ys with
      | nil =>
        rw [flatMap_nil, flatMap_cons] at hlists
        exact absurd hlists (escapedChar_append_ne_nil c _)
      | cons d ys =>
        rw [flatMap_cons, flatMap_cons] at hlists
        obtain ⟨rfl, hrest⟩ := escapedChar_append_inj hlists
        rw [ih ys hrest]
  · exact congrArg schematicString

/-! ## Which pins are connected -/

/-- Pins whose labels have one text, or whose wires share a point. -/
def StubsJoined (design : Design) (columns : ℕ) (row_spacing : ℤ) (a b : ℕ × ℕ) : Prop :=
  ∃ s t, stubOf design columns row_spacing a.1 a.2 = some s ∧ stubOf design columns row_spacing b.1 b.2 = some t ∧
    ((∃ p, (wire s.1.start s.1.stop).Covers p ∧ (wire t.1.start t.1.stop).Covers p) ∨
      s.2.text = t.2.text)

theorem covers_start (start stop : Position) : (wire start stop).Covers start :=
  ⟨⟨min_le_left _ _, le_max_left _ _⟩, min_le_left _ _, le_max_left _ _⟩

theorem covers_stop (start stop : Position) : (wire start stop).Covers stop :=
  ⟨⟨min_le_right _ _, le_max_right _ _⟩, min_le_right _ _, le_max_right _ _⟩

variable {i k : ℕ}

theorem label_position (h : stubOf design columns row_spacing i k = some stub) : stub.2.position = stub.1.stop := by
  obtain ⟨component, nodes, node, -, -, rfl⟩ := stubOf_eq_some_iff.mp h
  rfl

theorem covers_wire_of_mem (h : stubOf design columns row_spacing i k = some stub) {e : Element}
    (he : e ∈ stubElements i k stub) (hp : e.Covers p) : (wire stub.1.start stub.1.stop).Covers p := by
  simp only [stubElements, mem_cons, not_mem_nil, or_false] at he
  rcases he with rfl | rfl | rfl
  · obtain rfl : p = stub.1.start := hp
    exact covers_start _ _
  · exact hp
  · obtain rfl : p = stub.2.position := hp
    rw [label_position h]
    exact covers_stop _ _

theorem text_of_mem {text : String} (he : label text p ∈ stubElements i k stub) : text = stub.2.text := by
  simp only [stubElements, mem_cons, not_mem_nil, or_false, reduceCtorEq, false_or,
    label.injEq] at he
  exact he.1

variable {design : Design} {page : String} {columns : ℕ} {row_spacing : ℤ}

theorem joined_of_connected {a : ℕ × ℕ} {s : Wire × GlobalLabel}
    (ha : stubOf design columns row_spacing a.1 a.2 = some s) {e : Element}
    (h : (sheetOf design page columns row_spacing).Connected (.pin a.1 a.2 s.1.start) e) :
    e ∈ (sheetOf design page columns row_spacing).elements ∧
      ∀ b t, stubOf design columns row_spacing b.1 b.2 = some t → e ∈ stubElements b.1 b.2 t →
        Relation.ReflTransGen (StubsJoined design columns row_spacing) a b := by
  induction h with
  | refl =>
    refine ⟨mem_elements_iff.mpr ⟨a.1, a.2, s, ha, .head _⟩, fun b t hb hmem => ?_⟩
    simp only [stubElements, mem_cons, not_mem_nil, or_false, reduceCtorEq, pin.injEq] at hmem
    rw [show a = b from Prod.ext hmem.1 hmem.2.1]
  | tail _ hstep ih =>
    obtain ⟨hmem, hjoined⟩ := hstep
    refine ⟨hmem, fun b t hb hbmem => ?_⟩
    obtain ⟨i, k, u, hu, humem⟩ := mem_elements_iff.mp ih.1
    refine (ih.2 (i, k) u hu humem).tail ⟨u, t, hu, hb, ?_⟩
    rcases hjoined with ⟨p, hp, hp'⟩ | ⟨text, p, q, rfl, rfl⟩
    · exact .inl ⟨p, covers_wire_of_mem hu humem hp, covers_wire_of_mem hb hbmem hp'⟩
    · exact .inr ((text_of_mem humem).symm.trans (text_of_mem hbmem))

theorem connected_of_joined {s : Wire × GlobalLabel} (ha : stubOf design columns row_spacing a.1 a.2 = some s)
    (h : Relation.ReflTransGen (StubsJoined design columns row_spacing) a b) :
    ∀ t, stubOf design columns row_spacing b.1 b.2 = some t →
      (sheetOf design page columns row_spacing).Connected (.pin a.1 a.2 s.1.start) (.pin b.1 b.2 t.1.start) := by
  induction h with
  | refl =>
    intro t ht
    obtain rfl := some.inj (ha.symm.trans ht)
    exact .refl
  | @tail b c _ hstep ih =>
    intro v hv
    obtain ⟨t, u, ht, hu, hjoined⟩ := hstep
    obtain rfl := some.inj (hv.symm.trans hu)
    have hmem : ∀ {d : ℕ × ℕ} {w : Wire × GlobalLabel}, stubOf design columns row_spacing d.1 d.2 = some w →
        ∀ e ∈ stubElements d.1 d.2 w, e ∈ (sheetOf design page columns row_spacing).elements :=
      fun hw e he => mem_elements_iff.mpr ⟨_, _, _, hw, he⟩
    -- from the pin along its wire, to the other wire or from label to label, and to the other pin
    have hwire := (ih t ht).tail ⟨hmem ht _ (.tail _ (.head _)), .inl ⟨t.1.start, rfl, covers_start _ _⟩⟩
    have hpin : (sheetOf design page columns row_spacing).Connected (.wire v.1.start v.1.stop)
        (.pin c.1 c.2 v.1.start) :=
      .single ⟨hmem hv _ (.head _), .inl ⟨v.1.start, covers_start _ _, rfl⟩⟩
    rcases hjoined with hshared | htext
    · exact (hwire.tail ⟨hmem hv _ (.tail _ (.head _)), .inl hshared⟩).trans hpin
    · have hlabel := hwire.tail ⟨hmem ht _ (.tail _ (.tail _ (.head _))),
        .inl ⟨t.1.stop, covers_stop _ _, (label_position ht).symm⟩⟩
      have hlabel' := hlabel.tail ⟨hmem hv _ (.tail _ (.tail _ (.head _))), .inr ⟨t.2.text, _, _, rfl, by rw [htext]⟩⟩
      exact (hlabel'.tail ⟨hmem hv _ (.tail _ (.head _)),
        .inl ⟨v.1.stop, (label_position hv).symm, covers_stop _ _⟩⟩).trans hpin

/-- Pins are connected along pins whose labels have one text, or whose wires share a point. -/
theorem connected_iff {s t : Wire × GlobalLabel} (ha : stubOf design columns row_spacing a.1 a.2 = some s)
    (hb : stubOf design columns row_spacing b.1 b.2 = some t) :
    (sheetOf design page columns row_spacing).Connected (.pin a.1 a.2 s.1.start) (.pin b.1 b.2 t.1.start) ↔
      Relation.ReflTransGen (StubsJoined design columns row_spacing) a b :=
  ⟨fun h => (joined_of_connected ha h).2 b t hb (.head _), fun h => connected_of_joined ha h t hb⟩

/-! ## Nets -/

/-- Pins with the same name of the first net that lists them, or whose wires meet. -/
def Linked (design : Design) (columns : ℕ) (a b : ℕ × ℕ) : Prop :=
  ∃ component pin_name component' pin_name', pinOf design a = some (component, pin_name) ∧
    pinOf design b = some (component', pin_name') ∧
      (StubsMeet design columns a b component component' ∨
        labelName design component pin_name = labelName design component' pin_name')

/-- A net lists both pins. -/
def InOneNet (design : Design) (a b : ℕ × ℕ) : Prop :=
  ∃ component pin_name component' pin_name', pinOf design a = some (component, pin_name) ∧
    pinOf design b = some (component', pin_name') ∧
      ∃ net ∈ design.nets.values, Lists component pin_name net ∧ Lists component' pin_name' net

/-- Two pins of the schematic are connected just when a net lists both. -/
def NetlistKept (design : Design) (sheet : Sheet) : Prop :=
  ∀ i k p i' k' p', pin i k p ∈ sheet.elements → pin i' k' p' ∈ sheet.elements →
    (sheet.Connected (.pin i k p) (.pin i' k' p') ↔ InOneNet design (i, k) (i', k'))

/-- The nets are as the schematic connects them. -/
structure NetsDrawn (design : Design) (columns : ℕ) : Prop where
  apart : ∀ a b, Linked design columns a b → InOneNet design a b
  trans : ∀ a b c, InOneNet design a b → InOneNet design b c → InOneNet design a c
  together : ∀ a b, InOneNet design a b → Relation.ReflTransGen (Linked design columns) a b

theorem stubsJoined_iff
    (hlayout : schematicPageLayout (componentNodes design).length (maxPins design) = .ok (page, columns, row_spacing)) :
    StubsJoined design columns row_spacing a b ↔ Linked design columns a b := by
  constructor
  · rintro ⟨s, t, hs, ht, hjoined⟩
    obtain ⟨component, pin_name, ha, rfl⟩ := stubOf_eq_some_iff_pinOf.mp hs
    obtain ⟨component', pin_name', hb, rfl⟩ := stubOf_eq_some_iff_pinOf.mp ht
    exact ⟨component, pin_name, component', pin_name', ha, hb,
      hjoined.imp (exists_covers_iff hlayout ha hb _ _).mp schematicString_inj.mp⟩
  · rintro ⟨component, pin_name, component', pin_name', ha, hb, hlinked⟩
    exact ⟨_, _, stubOf_eq_some_iff_pinOf.mpr ⟨component, pin_name, ha, rfl⟩,
      stubOf_eq_some_iff_pinOf.mpr ⟨component', pin_name', hb, rfl⟩,
      hlinked.imp (exists_covers_iff hlayout ha hb _ _).mpr schematicString_inj.mpr⟩

theorem pin_mem_elements_iff :
    pin i k p ∈ (sheetOf design page columns row_spacing).elements ↔
      ∃ stub, stubOf design columns row_spacing i k = some stub ∧ p = stub.1.start := by
  rw [mem_elements_iff]
  constructor
  · rintro ⟨i', k', stub, hstub, he⟩
    simp only [stubElements, mem_cons, not_mem_nil, or_false, reduceCtorEq, pin.injEq] at he
    obtain ⟨rfl, rfl, rfl⟩ := he
    exact ⟨stub, hstub, rfl⟩
  · rintro ⟨stub, hstub, rfl⟩
    exact ⟨i, k, stub, hstub, .head _⟩

theorem netlistKept_sheetOf_iff
    (hlayout : schematicPageLayout (componentNodes design).length (maxPins design) = .ok (page, columns, row_spacing)) :
    NetlistKept design (sheetOf design page columns row_spacing) ↔ NetsDrawn design columns := by
  have hjoined : StubsJoined design columns row_spacing = Linked design columns := by
    ext a b
    exact stubsJoined_iff hlayout
  have hstub : ∀ {a : ℕ × ℕ} {component : Component} {pin_name : String}, pinOf design a = some (component, pin_name) →
      ∃ stub, stubOf design columns row_spacing a.1 a.2 = some stub :=
    fun ha => ⟨_, stubOf_eq_some_iff_pinOf.mpr ⟨_, _, ha, rfl⟩⟩
  constructor
  · intro h
    have hsame : ∀ a b, (∃ s, stubOf design columns row_spacing a.1 a.2 = some s) →
        (∃ t, stubOf design columns row_spacing b.1 b.2 = some t) →
          (Relation.ReflTransGen (Linked design columns) a b ↔ InOneNet design a b) := by
      rintro a b ⟨s, hs⟩ ⟨t, ht⟩
      rw [← hjoined, ← connected_iff hs ht]
      exact h _ _ _ _ _ _ (pin_mem_elements_iff.mpr ⟨s, hs, rfl⟩) (pin_mem_elements_iff.mpr ⟨t, ht, rfl⟩)
    have hends : ∀ {a b}, InOneNet design a b → (∃ s, stubOf design columns row_spacing a.1 a.2 = some s) ∧
        ∃ t, stubOf design columns row_spacing b.1 b.2 = some t := by
      rintro a b ⟨_, _, _, _, ha, hb, -⟩
      exact ⟨hstub ha, hstub hb⟩
    refine ⟨?_, ?_, ?_⟩
    · intro a b hlinked
      obtain ⟨_, _, _, _, ha, hb, -⟩ := id hlinked
      exact (hsame a b (hstub ha) (hstub hb)).mp (.single hlinked)
    · intro a b c hab hbc
      have hab' := (hsame a b (hends hab).1 (hends hab).2).mpr hab
      have hbc' := (hsame b c (hends hbc).1 (hends hbc).2).mpr hbc
      exact (hsame a c (hends hab).1 (hends hbc).2).mp (hab'.trans hbc')
    · intro a b hab
      exact (hsame a b (hends hab).1 (hends hab).2).mpr hab
  · rintro ⟨hapart, htrans, htogether⟩ i k p i' k' p' hp hp'
    obtain ⟨s, hs, rfl⟩ := pin_mem_elements_iff.mp hp
    obtain ⟨t, ht, rfl⟩ := pin_mem_elements_iff.mp hp'
    rw [connected_iff (a := (i, k)) (b := (i', k')) hs ht, hjoined]
    have hall : ∀ b, Relation.ReflTransGen (Linked design columns) (i, k) b → InOneNet design (i, k) b := by
      intro b h
      induction h with
      | refl =>
        -- a net lists every pin of the schematic
        have hslot : stubOf design columns row_spacing (i, k).1 (i, k).2 = some s := hs
        obtain ⟨component, pin_name, ha, -⟩ := stubOf_eq_some_iff_pinOf.mp hslot
        obtain ⟨-, pad, hpin⟩ := pinOf_eq_some_iff.mp ha
        obtain ⟨net, hnet, hlists⟩ := exists_net_of_mem_nodePins (mem_of_getElem? hpin)
        exact ⟨component, pin_name, component, pin_name, ha, ha, net, hnet, hlists, hlists⟩
      | tail _ hlinked ih => exact htrans _ _ _ ih (hapart _ _ hlinked)
    exact ⟨hall _, htogether _ _⟩

/-- **The schematic keeps the netlist**: there is one, and its connections are the nets, just when the symbols fit
on a page, no footprint asset is wrong, and the nets are as the schematic connects them. -/
theorem netlistKept_iff (assetError : Component → Option String) (design : Design) :
    (∃ sheet, buildSchematic assetError design = .ok sheet ∧ NetlistKept design sheet) ↔
      (∀ component ∈ design.components.values, assetError component = none) ∧
        ∃ page columns row_spacing, schematicPageLayout (componentNodes design).length (maxPins design) =
          .ok (page, columns, row_spacing) ∧ NetsDrawn design columns := by
  constructor
  · rintro ⟨sheet, hsheet, hkept⟩
    obtain ⟨hassets, page, columns, row_spacing, hlayout, rfl⟩ := buildSchematic_eq_ok_iff.mp hsheet
    exact ⟨hassets, page, columns, row_spacing, hlayout, (netlistKept_sheetOf_iff hlayout).mp hkept⟩
  · rintro ⟨hassets, page, columns, row_spacing, hlayout, hdrawn⟩
    exact ⟨sheetOf design page columns row_spacing,
      buildSchematic_eq_ok_iff.mpr ⟨hassets, page, columns, row_spacing, hlayout, rfl⟩,
      (netlistKept_sheetOf_iff hlayout).mpr hdrawn⟩

/-- A name that makes a symbol about 38 millimetres wide on each side. -/
def longName : String := "QWERTYUIOPASDFGHJKLZXCVBNM123456789"

def firstPart : Component where
  id := "U1"
  ref := "U1"

def secondPart : Component where
  id := "U2"
  ref := "U2"

/-- Two wide parts next to each other, with three nets. -/
def wideDesign : Design where
  components := (Dict.empty.set "U1" firstPart).set "U2" secondPart
  nets := ((Dict.empty.set "A" { id := "A", name := "A", nodes := [⟨"U1", "1"⟩] }).set "B"
    { id := "B", name := "B", nodes := [⟨"U1", longName⟩] }).set "C"
    { id := "C", name := "C", nodes := [⟨"U2", longName⟩] }

theorem symbolPins_of_unmapped {component : Component} (h : component.package_pin_map.items = []) (pin_name : String) :
    symbolPins component pin_name = [pin_name] := by
  have hpads : physicalPads component pin_name = [] := by
    unfold physicalPads
    rw [h]
    simp
  rw [symbolPins, if_pos hpads]

theorem nodePins_of_unmapped {component : Component} (h : component.package_pin_map.items = []) :
    nodePins design component = (listedPins design component).map fun pin_name => (pin_name, pin_name) := by
  unfold nodePins
  simp only [symbolPins_of_unmapped h, map_singleton, ← map_eq_flatMap]

theorem nodePins_firstPart : nodePins wideDesign firstPart = [("1", "1"), (longName, longName)] := by
  rw [nodePins_of_unmapped rfl, show listedPins wideDesign firstPart = ["1", longName] by decide]
  rfl

theorem nodePins_secondPart : nodePins wideDesign secondPart = [(longName, longName)] := by
  rw [nodePins_of_unmapped rfl, show listedPins wideDesign secondPart = [longName] by decide]
  rfl

theorem stubsMeet_wideDesign : StubsMeet wideDesign 3 (0, 1) (1, 0) firstPart secondPart := by
  unfold StubsMeet
  rw [schematicNodes_eq, schematicNodes_eq, nodePins_firstPart, nodePins_secondPart]
  decide

theorem not_netsDrawn_wideDesign : ¬ NetsDrawn wideDesign 3 := by
  intro h
  have hfirst : pinOf wideDesign (0, 1) = some (firstPart, longName) :=
    pinOf_eq_some_iff.mpr ⟨rfl, longName, by rw [nodePins_firstPart]; rfl⟩
  have hsecond : pinOf wideDesign (1, 0) = some (secondPart, longName) :=
    pinOf_eq_some_iff.mpr ⟨rfl, longName, by rw [nodePins_secondPart]; rfl⟩
  obtain ⟨_, _, _, _, ha, hb, net, hnet, hlists, hlists'⟩ :=
    h.apart (0, 1) (1, 0) ⟨_, _, _, _, hfirst, hsecond, .inl stubsMeet_wideDesign⟩
  rw [hfirst] at ha
  rw [hsecond] at hb
  cases ha
  cases hb
  have hnone : ∀ net ∈ wideDesign.nets.values, ¬ (Lists firstPart longName net ∧ Lists secondPart longName net) := by
    decide
  exact hnone net hnet ⟨hlists, hlists'⟩

/-- Two pins of different nets are connected in the schematic. -/
theorem not_netlistKept_wideDesign :
    ∃ sheet, buildSchematic (fun _ => none) wideDesign = .ok sheet ∧ ¬ NetlistKept wideDesign sheet := by
  have hnodes : componentNodes wideDesign =
      [(firstPart, [("1", "A"), (longName, "B")]), (secondPart, [(longName, "C")])] := by
    show [(firstPart, schematicNodesForComponent wideDesign firstPart),
      (secondPart, schematicNodesForComponent wideDesign secondPart)] = _
    rw [schematicNodes_eq, schematicNodes_eq, nodePins_firstPart, nodePins_secondPart]
    rfl
  have hlayout : schematicPageLayout (componentNodes wideDesign).length (maxPins wideDesign) = .ok ("A4", 3, 6731) := by
    rw [maxPins, hnodes]
    rfl
  refine ⟨sheetOf wideDesign "A4" 3 6731,
    buildSchematic_eq_ok_iff.mpr ⟨fun _ _ => rfl, "A4", 3, 6731, hlayout, rfl⟩, ?_⟩
  rw [netlistKept_sheetOf_iff hlayout]
  exact not_netsDrawn_wideDesign

end ZapTrace.Kicad
