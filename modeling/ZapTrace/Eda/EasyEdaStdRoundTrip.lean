import ZapTrace.Eda.EasyEdaStdAccount

/-!
# Designs that survive EasyEDA Standard

A report that counts nothing is accepted, and says that no design elements were lost. It counts routing, copper pours
and the result of the design rules. What comes back of a component is its identifier, reference, value, footprint and
position: the type is always the same, there are no pins and no part number, and what has no value or position comes
back with one. Blocks, the board definition, the placement and the net classes are neither written nor counted.

## Main results

* `readData_document`, `convert_document`: what comes back of a design
* `roundTrips_iff_kept`: an accepted design comes back exactly when it is kept
* `roundTrips_and_mapsAll_iff`: when designs come back and documents are mapped
-/

namespace ZapTrace.EasyEdaStd

open Account List Dict
open Schema (Design)
open PyValue (str getItem)

variable (rt : Runtime)

/-! ## Designs that come back -/

structure SameComponent (c c' : Schema.Component) : Prop where
  id : c.id = c'.id
  ref : c.ref = c'.ref
  type : c.type = c'.type
  value : c.value = c'.value
  footprint : c.footprint = c'.footprint
  position : c.position = c'.position
  pins : c.pins = c'.pins
  mpn : c.mpn = c'.mpn

structure SameNet (n n' : Schema.Net) : Prop where
  id : n.id = n'.id
  name : n.name = n'.name
  type : n.type = n'.type
  nodes : n.nodes = n'.nodes

/-- The designs have the same components and the same nets. -/
structure Agrees (design design' : Design) : Prop where
  components : ∀ k, Option.Rel SameComponent (design.components.get? k) (design'.components.get? k)
  nets : ∀ k, Option.Rel SameNet (design.nets.get? k) (design'.nets.get? k)

/-- The design has no content of the kinds that the text lacks. -/
structure NoOther (design : Design) : Prop where
  blocks : design.blocks = []
  board_def : design.board_def.isNone
  placement : ∀ placement, design.placement = some placement → placement.items = []
  net_classes : ∀ net_classes, design.net_classes = some net_classes → net_classes.items = []

/-- A design with an accepted report comes back from the text, and has no other content. -/
def RoundTrips (design : Design) (project_name source_provenance name : String) : Prop :=
  (writeEasyedaStdJson rt design project_name source_provenance).2.accepted →
    (∃ project design', readEasyedaStdJson rt (writeEasyedaStdJson rt design project_name source_provenance).1 =
        .ok project ∧ easyedaStdProjectToDesign project name = some design' ∧ Agrees design design') ∧
      NoOther design

/-- The design has nothing that the report counts. -/
structure Uncounted (design : Design) : Prop where
  routing : design.routing.isNone
  copper_pours : design.copper_pours.items = []
  drc_result : design.drc_result.isNone

def KeptComponent (c : Schema.Component) : Prop :=
  c.id ≠ "" ∧ c.type = "component" ∧ c.value.isSome ∧ c.position.isSome ∧ c.pins = empty ∧ c.mpn = none

def KeptNet (n : Schema.Net) : Prop :=
  n.id ≠ "" ∧ n.type = .signal ∧ ∀ node ∈ n.nodes, node.component_ref ≠ "" ∧ node.pin_name ≠ ""

/-- The text is not too long, components and nets have nothing that is not written, and there is nothing else. -/
structure Kept (design : Design) (project_name source_provenance : String) : Prop where
  size : (rt.dumps (document design project_name source_provenance)).utf8ByteSize ≤ maxJsonBytes
  components : ∀ c ∈ design.components.values, KeptComponent c
  nets : ∀ n ∈ design.nets.values, KeptNet n
  other : NoOther design

/-- The keys of components and nets are their identifiers. -/
structure KeyedByIds (design : Design) : Prop where
  components : ∀ item ∈ design.components.items, item.2.id = item.1
  nets : ∀ item ∈ design.nets.items, item.2.id = item.1

variable {rt}

theorem accepted_iff {design : Design} {project_name source_provenance : String} :
    (writeEasyedaStdJson rt design project_name source_provenance).2.accepted ↔ Uncounted design := by
  show (if design.routing.isSome then 1 else 0) + design.copper_pours.items.length +
    (if design.drc_result.isSome then 1 else 0) = 0 ↔ _
  rw [Nat.add_eq_zero_iff, Nat.add_eq_zero_iff, length_eq_zero_iff]
  constructor
  · rintro ⟨⟨hrouting, hpours⟩, hdrc⟩
    refine ⟨?_, hpours, ?_⟩
    · cases hr : design.routing with
      | none => rfl
      | some _ => simp [hr] at hrouting
    · cases hr : design.drc_result with
      | none => rfl
      | some _ => simp [hr] at hdrc
  · rintro ⟨hrouting, hpours, hdrc⟩
    rw [Option.isNone_iff_eq_none.mp hrouting, Option.isNone_iff_eq_none.mp hdrc]
    exact ⟨⟨rfl, hpours⟩, rfl⟩

/-! ## The document of a design -/

theorem extractSection_document (design : Design) (project_name source_provenance : String) :
    extractSection (document design project_name source_provenance) =
      .dict [(str "components", .list ((sortedValues design.components).map componentRecord)),
        (str "nets", .list ((sortedValues design.nets).map netRecord)), (str "wires", .list []),
        (str "shapes", .list [])] := by
  simp [extractSection, sections, sectionKeys, document, getItem, PyValue.lookup]

theorem partEntries_document (design : Design) (project_name source_provenance : String) :
    partEntries (extractSection (document design project_name source_provenance)) "components" =
        (sortedValues design.components).map componentRecord ∧
      partEntries (extractSection (document design project_name source_provenance)) "nets" =
        (sortedValues design.nets).map netRecord := by
  rw [extractSection_document]
  simp [partEntries, get, getItem, PyValue.lookup, PyValue.elements]

theorem loops_document (design : Design) (project_name source_provenance : String) :
    Loops (extractSection (document design project_name source_provenance)) := by
  rw [extractSection_document]
  unfold Loops
  simp [get, getItem, PyValue.lookup, PyValue.elements]

/-- What the reader makes of a component of a design. -/
def componentRead (c : Schema.Component) : EasyEdaStdComponent :=
  ⟨c.id, c.ref, c.value.getD "", c.footprint, (c.position.getD (0, 0)).1, (c.position.getD (0, 0)).2⟩

def netRead (n : Schema.Net) : EasyEdaStdNet :=
  ⟨n.id, n.name.val, n.nodes.map fun node => ⟨node.component_ref, node.pin_name⟩⟩

/-- What the reader makes of a list of records, of which those without an identifier are refused. -/
def recordOutcome {α β : Type} (id : α → String) (read : α → β) (refuse : α → EasyEdaStdDegradationRecord) (a : α) :
    β ⊕ EasyEdaStdDegradationRecord :=
  if id a = "" then .inr (refuse a) else .inl (read a)

theorem lefts_recordOutcome {α β : Type} (id : α → String) (read : α → β)
    (refuse : α → EasyEdaStdDegradationRecord) (as : List α) :
    lefts (as.map (recordOutcome id read refuse)) = (as.filter fun a => id a ≠ "").map read := by
  induction as with
  | nil => rfl
  | cons a as ih =>
    by_cases ha : id a = ""
    · simpa [recordOutcome, ha, lefts] using ih
    · simpa [recordOutcome, ha, lefts] using ih

theorem parseComponent_componentRecord (c : Schema.Component) :
    parseComponent rt "schematic.components" (componentRecord c) =
      .ok (recordOutcome Schema.Component.id componentRead (fun c =>
        ⟨"COMPONENT_MISSING_ID", "schematic.components", "error", take200 (rt.text (componentRecord c))⟩) c) := by
  by_cases hid : c.id = ""
  · simp [parseComponent, componentRecord, get, getItem, PyValue.lookup, Runtime.text, recordOutcome, hid]
  · simp [parseComponent, componentRecord, get, getItem, PyValue.lookup, Runtime.text, pyFloat, componentRead,
      recordOutcome, hid]

theorem name_ne (n : Schema.Net) : n.name.val ≠ "" := by
  intro h
  apply n.name.property
  rw [h]
  rfl

theorem parsePins_pinRecords (nodes : List Schema.NetNode) :
    parsePins rt (.list (nodes.map pinRecord)) = nodes.map fun node => ⟨node.component_ref, node.pin_name⟩ := by
  show filterMap (parsePin rt) (nodes.map pinRecord) = _
  rw [filterMap_map, ← filterMap_eq_map]
  refine filterMap_congr fun node _ => ?_
  simp [parsePin, pinRecord, get, getItem, PyValue.lookup, Runtime.text]

theorem parseNet_netRecord (n : Schema.Net) :
    parseNet rt "schematic.nets" (netRecord n) =
      recordOutcome Schema.Net.id netRead (fun n =>
        ⟨"NET_MISSING_FIELD", "schematic.nets", "error", take200 (rt.text (netRecord n))⟩) n := by
  by_cases hid : n.id = ""
  · simp [parseNet, netRecord, get, getItem, PyValue.lookup, Runtime.text, recordOutcome, hid]
  · simp [parseNet, netRecord, get, getItem, PyValue.lookup, Runtime.text, recordOutcome, hid, name_ne n,
      parsePins_pinRecords, netRead]

/-! ## What comes back -/

/-- The reader makes a component and a net of each that has an identifier. -/
theorem readData_document (design : Design) (project_name source_provenance : String) :
    ∃ project, readData rt (document design project_name source_provenance) = .ok project ∧
      project.components = ((sortedValues design.components).filter fun c => c.id ≠ "").map componentRead ∧
      project.nets = ((sortedValues design.nets).filter fun n => n.id ≠ "").map netRead := by
  obtain ⟨hcomponents, hnets⟩ := partEntries_document design project_name source_provenance
  have houts : List.Forall₂ (fun raw out => parseComponent rt "schematic.components" raw = .ok out)
      ((sortedValues design.components).map componentRecord)
      ((sortedValues design.components).map (recordOutcome Schema.Component.id componentRead fun c =>
        ⟨"COMPONENT_MISSING_ID", "schematic.components", "error", take200 (rt.text (componentRecord c))⟩)) := by
    rw [forall₂_map_left_iff, forall₂_map_right_iff]
    exact forall₂_same.mpr fun c _ => parseComponent_componentRecord c
  have hread : ∃ project, readData rt (document design project_name source_provenance) = .ok project := by
    refine exists_readData_iff.mpr ⟨loops_document design project_name source_provenance, ?_⟩
    rw [hcomponents]
    intro raw hraw
    obtain ⟨c, -, rfl⟩ := mem_map.mp hraw
    exact exists_parseComponent_iff.mp ⟨_, parseComponent_componentRecord c⟩
  obtain ⟨project, hproject⟩ := hread
  obtain ⟨-, outs, hreads⟩ := readData_ok hproject
  refine ⟨project, hproject, ?_, ?_⟩
  · have houtcomes := hreads.outcomes
    rw [hcomponents] at houtcomes
    have hunique := Except.ok.inj ((Lists.mapM_eq_ok_iff.mpr houtcomes).symm.trans (Lists.mapM_eq_ok_iff.mpr houts))
    rw [hreads.components, hunique, lefts_recordOutcome]
  · rw [hreads.nets, hnets, map_map, ← lefts_recordOutcome Schema.Net.id netRead fun n =>
      ⟨"NET_MISSING_FIELD", "schematic.nets", "error", take200 (rt.text (netRecord n))⟩]
    exact congrArg lefts (map_congr_left fun n _ => parseNet_netRecord n)

def componentBack (c : Schema.Component) : Schema.Component := canonicalComponent (componentRead c)

def netBack (n : Schema.Net) : Schema.Net :=
  { id := n.id, name := n.name, nodes := n.nodes.filter fun node => node.component_ref ≠ "" ∧ node.pin_name ≠ "" }

theorem canonicalNet_netRead (n : Schema.Net) : canonicalNet (netRead n) = some (netBack n) := by
  have hnodes : netNodes (netRead n) = n.nodes.filter fun node => node.component_ref ≠ "" ∧ node.pin_name ≠ "" := by
    unfold netNodes netRead
    rw [filter_map, map_map]
    exact map_id' _
  have hname : pyStrip (netRead n).name ≠ "" := n.name.property
  unfold canonicalNet
  rw [dif_pos hname, hnodes]
  rfl

/-- The design that comes back has what comes back of each component and net with an identifier. -/
theorem convert_document {project : EasyEdaStdProject} {cs : List Schema.Component} {ns : List Schema.Net}
    (name : String)
    (hcomponents : project.components = cs.map componentRead) (hnets : project.nets = ns.map netRead) :
    ∃ design, easyedaStdProjectToDesign project name = some design ∧
      design.components = indexBy Schema.Component.id (cs.map componentBack) ∧
      design.nets = indexBy Schema.Net.id (ns.map netBack) := by
  have hforall : List.Forall₂ (fun n net => canonicalNet n = some net) project.nets (ns.map netBack) := by
    rw [hnets, forall₂_map_left_iff, forall₂_map_right_iff]
    exact forall₂_same.mpr fun n _ => canonicalNet_netRead n
  unfold easyedaStdProjectToDesign
  rw [Lists.mapM_eq_some_iff.mpr hforall]
  refine ⟨_, rfl, ?_, rfl⟩
  show indexBy Schema.Component.id (project.components.map canonicalComponent) = _
  rw [hcomponents, map_map]
  rfl

/-! ## Lookups -/

theorem mem_sortedValues {α : Type} {d : Dict String α} {a : α} : a ∈ sortedValues d ↔ a ∈ d.values :=
  ((perm_insertionSort _ _).map Prod.snd).mem_iff

theorem nodup_sortedValues {α : Type} {id : α → String} {d : Dict String α}
    (hkeys : ∀ item ∈ d.items, id item.2 = item.1) : ((sortedValues d).map id).Nodup := by
  have hperm : ((sortedValues d).map id).Perm (d.values.map id) :=
    ((perm_insertionSort _ _).map Prod.snd).map id
  have hmap : d.values.map id = d.items.map Prod.fst := by
    rw [values, map_map]
    exact map_congr_left hkeys
  rw [hperm.nodup_iff, hmap]
  exact pairwise_map.mpr d.keyed

theorem get?_back {α : Type} {id : α → String} {back : α → α} (hback : ∀ a, id (back a) = id a) {d : Dict String α}
    (hkeys : ∀ item ∈ d.items, id item.2 = item.1) (k : String) :
    (indexBy id (((sortedValues d).filter fun a => id a ≠ "").map back)).get? k =
      if k = "" then none else (d.get? k).map back := by
  have hnodup : ((((sortedValues d).filter fun a => id a ≠ "").map back).map id).Nodup := by
    have hmap : (((sortedValues d).filter fun a => id a ≠ "").map back).map id =
        ((sortedValues d).filter fun a => id a ≠ "").map id := by
      rw [map_map]
      exact map_congr_left fun a _ => hback a
    rw [hmap]
    exact (nodup_sortedValues hkeys).sublist (filter_sublist.map id)
  have hfound : ∀ a, d.get? k = some a ↔ a ∈ d.values ∧ id a = k := by
    intro a
    rw [get?_eq_some_iff, values, mem_map]
    constructor
    · intro hitem
      exact ⟨⟨(k, a), hitem, rfl⟩, hkeys _ hitem⟩
    · rintro ⟨⟨⟨k', a'⟩, hitem, rfl⟩, hk⟩
      rwa [← hk, hkeys _ hitem]
  ext b
  rw [get?_indexBy_iff hnodup, mem_map]
  split
  next hk =>
    refine iff_of_false ?_ fun h => by cases h
    rintro ⟨⟨a, ha, rfl⟩, hid⟩
    have hne := of_decide_eq_true (mem_filter.mp ha).2
    exact hne ((hback a).symm.trans (hid.trans hk))
  next hk =>
    rw [Option.map_eq_some_iff]
    constructor
    · rintro ⟨⟨a, ha, rfl⟩, hid⟩
      exact ⟨a, (hfound a).mpr ⟨mem_sortedValues.mp (mem_filter.mp ha).1, (hback a).symm.trans hid⟩, rfl⟩
    · rintro ⟨a, ha, rfl⟩
      obtain ⟨hmem, hid⟩ := (hfound a).mp ha
      have hne : id a ≠ "" := fun hempty => hk (hid.symm.trans hempty)
      exact ⟨⟨a, mem_filter.mpr ⟨mem_sortedValues.mpr hmem, decide_eq_true hne⟩, rfl⟩, (hback a).trans hid⟩

/-- What comes back is related to what was there exactly when each value has an identifier and is related to what comes
back of it. -/
theorem forall_rel_back_iff {α : Type} {R : α → α → Prop} {id : α → String} {back : α → α}
    (hback : ∀ a, id (back a) = id a) {d : Dict String α} (hkeys : ∀ item ∈ d.items, id item.2 = item.1) :
    (∀ k, Option.Rel R (d.get? k)
        ((indexBy id (((sortedValues d).filter fun a => id a ≠ "").map back)).get? k)) ↔
      ∀ a ∈ d.values, id a ≠ "" ∧ R a (back a) := by
  constructor
  · intro h a ha
    obtain ⟨⟨k, a⟩, hitem, rfl⟩ := mem_map.mp ha
    have hrel := h k
    rw [get?_back hback hkeys, get?_eq_some_iff.mpr hitem] at hrel
    by_cases hk : k = ""
    · rw [if_pos hk] at hrel
      cases hrel
    · rw [if_neg hk] at hrel
      cases hrel with
      | some hr => exact ⟨fun hempty => hk ((hkeys _ hitem).symm.trans hempty), hr⟩
  · intro h k
    rw [get?_back hback hkeys]
    cases hget : d.get? k with
    | none =>
      split
      · exact .none
      · exact .none
    | some a =>
      have hitem := get?_eq_some_iff.mp hget
      obtain ⟨hid, hr⟩ := h a (mem_map.mpr ⟨(k, a), hitem, rfl⟩)
      have hk : k ≠ "" := fun hempty => hid ((hkeys _ hitem).trans hempty)
      rw [if_neg hk]
      exact .some hr

theorem sameComponent_back_iff {c : Schema.Component} :
    c.id ≠ "" ∧ SameComponent c (componentBack c) ↔ KeptComponent c := by
  refine and_congr_right fun _ => ?_
  constructor
  · intro h
    exact ⟨h.type, h.value ▸ rfl, h.position ▸ rfl, h.pins, h.mpn⟩
  · rintro ⟨htype, hvalue, hposition, hpins, hmpn⟩
    refine ⟨rfl, rfl, htype, ?_, rfl, ?_, hpins, hmpn⟩
    · obtain ⟨value, hvalue⟩ := Option.isSome_iff_exists.mp hvalue
      simp [componentBack, canonicalComponent, componentRead, hvalue]
    · obtain ⟨position, hposition⟩ := Option.isSome_iff_exists.mp hposition
      simp [componentBack, canonicalComponent, componentRead, hposition]

theorem sameNet_back_iff {n : Schema.Net} : n.id ≠ "" ∧ SameNet n (netBack n) ↔ KeptNet n := by
  refine and_congr_right fun _ => ?_
  have hnodes : n.nodes = (netBack n).nodes ↔ ∀ node ∈ n.nodes, node.component_ref ≠ "" ∧ node.pin_name ≠ "" := by
    rw [eq_comm]
    refine filter_eq_self.trans (forall₂_congr fun node _ => ?_)
    exact decide_eq_true_iff
  rw [← hnodes]
  exact ⟨fun h => ⟨h.type, h.nodes⟩, fun h => ⟨rfl, rfl, h.1, h.2⟩⟩

/-! ## The round trip -/

/-- **An accepted design comes back** exactly when it is kept. -/
theorem roundTrips_iff_kept {design : Design} {project_name source_provenance name : String} (h : KeyedByIds design) :
    RoundTrips rt design project_name source_provenance name ↔
      (Uncounted design → Kept rt design project_name source_provenance) := by
  refine imp_congr accepted_iff ?_
  obtain ⟨project, hread, hcomponents, hnets⟩ :=
    @readData_document rt design project_name source_provenance
  obtain ⟨design', hconvert, hcomponents', hnets'⟩ := convert_document name hcomponents hnets
  have hagrees : Agrees design design' ↔
      (∀ c ∈ design.components.values, KeptComponent c) ∧ ∀ n ∈ design.nets.values, KeptNet n := by
    have hiff : Agrees design design' ↔ _ ∧ _ := ⟨fun h => ⟨h.components, h.nets⟩, fun h => ⟨h.1, h.2⟩⟩
    have hcomponent : ∀ c, (componentBack c).id = c.id := fun _ => rfl
    have hnet : ∀ n, (netBack n).id = n.id := fun _ => rfl
    rw [hiff, hcomponents', hnets', forall_rel_back_iff hcomponent h.components, forall_rel_back_iff hnet h.nets]
    simp only [sameComponent_back_iff, sameNet_back_iff]
  by_cases hsize : (rt.dumps (document design project_name source_provenance)).utf8ByteSize ≤ maxJsonBytes
  · have hsource : readEasyedaStdJson rt (writeEasyedaStdJson rt design project_name source_provenance).1 =
        .ok project := by
      unfold readEasyedaStdJson writeEasyedaStdJson
      simp only
      rw [if_neg (Nat.not_lt.mpr hsize)]
      exact hread
    constructor
    · rintro ⟨⟨project', design'', hread', hconvert', hagree⟩, hother⟩
      obtain rfl := Except.ok.inj (hsource.symm.trans hread')
      obtain rfl := Option.some.inj (hconvert.symm.trans hconvert')
      obtain ⟨hc, hn⟩ := hagrees.mp hagree
      exact ⟨hsize, hc, hn, hother⟩
    · intro hkept
      exact ⟨⟨project, design', hsource, hconvert, hagrees.mpr ⟨hkept.components, hkept.nets⟩⟩, hkept.other⟩
  · refine iff_of_false ?_ fun hkept => hsize hkept.size
    rintro ⟨⟨project', _, hread', -⟩, -⟩
    unfold readEasyedaStdJson writeEasyedaStdJson at hread'
    simp only at hread'
    rw [if_pos (Nat.lt_of_not_le hsize)] at hread'
    cases hread'

/-- **Accepted designs come back, and documents are mapped**, exactly when the design is kept or not accepted and the
document is mappable. -/
theorem roundTrips_and_mapsAll_iff {design : Design} (h : KeyedByIds design)
    (project_name source_provenance name : String) (items : List (PyValue × PyValue)) :
    RoundTrips rt design project_name source_provenance name ∧ MapsAll rt (.dict items) name ↔
      (Uncounted design → Kept rt design project_name source_provenance) ∧ Mappable rt (.dict items) :=
  and_congr (roundTrips_iff_kept h) mapsAll_iff

def resistor (type : String) : Schema.Component where
  id := "c1"
  ref := "R1"
  type := type
  value := some "10k"
  position := some (1, 2)

def resistorDesign (type : String) : Design where
  «meta» := { name := "divider" }
  components := empty.set "c1" (resistor type)

/-- The text of the document of this design, whatever the type. -/
def resistorText : String :=
  "\x7b\n  \"head\": \x7b\n    \"docType\": \"1\",\n    \"editorVersion\": \"6.5.40\",\n    \"c_para\": \x7b\n" ++
  "      \"name\": \"\",\n      \"sourceProvenance\": \"\"\n    \x7d\n  \x7d,\n  \"schematic\": \x7b\n" ++
  "    \"components\": [\n      \x7b\n        \"id\": \"c1\",\n        \"ref\": \"R1\",\n" ++
  "        \"value\": \"10k\",\n        \"packageName\": \"\",\n        \"x\": 1.0,\n        \"y\": 2.0\n" ++
  "      \x7d\n    ],\n    \"nets\": [],\n    \"wires\": [],\n    \"shapes\": []\n  \x7d\n\x7d"

/-- The runtime, as far as these documents need it. -/
def resistorRuntime : Runtime where
  str _ := ""
  parseFloat _ := none
  floatMessage _ := ""
  dumps _ := resistorText

def netEntry (pin : PyValue) : PyValue :=
  .dict [(str "id", str "n1"), (str "name", str "VCC"), (str "pins", .list [pin])]

def netDocument (pin : PyValue) : List (PyValue × PyValue) :=
  [(str "schematic", .dict [(str "nets", .list [netEntry pin])])]

def pinEntry : PyValue := .dict [(str "componentId", str "c1"), (str "pinNumber", str "1")]

theorem items_resistorDesign (type : String) :
    (resistorDesign type).components.items = [("c1", resistor type)] := rfl

theorem values_resistorDesign (type : String) : (resistorDesign type).components.values = [resistor type] := rfl

theorem keyedByIds_resistorDesign (type : String) : KeyedByIds (resistorDesign type) where
  components := by
    intro item hitem
    rw [items_resistorDesign, mem_singleton] at hitem
    rw [hitem]
    rfl
  nets := by
    intro item hitem
    cases hitem

theorem roundTrips_and_mapsAll_iff_resistor :
    RoundTrips resistorRuntime (resistorDesign "component") "" "" "divider" ∧
        MapsAll resistorRuntime (.dict (netDocument pinEntry)) "divider" ↔
      (Uncounted (resistorDesign "component") → Kept resistorRuntime (resistorDesign "component") "" "") ∧
        Mappable resistorRuntime (.dict (netDocument pinEntry)) :=
  roundTrips_and_mapsAll_iff (keyedByIds_resistorDesign "component") "" "" "divider" (netDocument pinEntry)

/-- A resistor comes back with another type, and a pin that is a number is dropped. -/
theorem not_roundTrips_resistor :
    ¬ RoundTrips resistorRuntime (resistorDesign "resistor") "" "" "divider" ∧
      ¬ MapsAll resistorRuntime (.dict (netDocument (.int 1))) "divider" := by
  constructor
  · rw [roundTrips_iff_kept (keyedByIds_resistorDesign "resistor")]
    intro h
    have hkept := h ⟨rfl, rfl, rfl⟩
    have hmem : resistor "resistor" ∈ (resistorDesign "resistor").components.values :=
      values_resistorDesign "resistor" ▸ mem_singleton_self _
    have hresistor := hkept.components _ hmem
    exact absurd hresistor.2.1 (by decide)
  · rw [mapsAll_iff]
    intro h
    have hmem : netEntry (.int 1) ∈ partEntries (extractSection (.dict (netDocument (.int 1)))) "nets" := by
      simp [netDocument, extractSection, sections, sectionKeys, partEntries, get, getItem, PyValue.lookup,
        PyValue.elements]
    have hnet : IsNet resistorRuntime (netEntry (.int 1)) := ⟨⟨_, rfl⟩, by decide, by decide⟩
    obtain ⟨items, hitems⟩ := h.objects _ hmem hnet (.int 1) (mem_singleton_self _)
    cases hitems

end ZapTrace.EasyEdaStd
