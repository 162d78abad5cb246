import Mathlib.Data.String.Basic
import ZapTrace.Core.Models

/-!
# The nets of pads in the KiCad export

The schematic export gives a component a symbol pin for each physical pad of each logical pin that a net
lists, with the name of the first net that lists the logical pin. The PCB export gives a pad the net that the
logical pin of the component names, and only when it names none the first net that lists the pin. Nets of the
PCB are numbered, and an identifier of a net stands for the last net that has it.

## Main results

* `mem_schematicNodes_iff`: which symbol pins there are
* `connectivityAgrees_iff`: the designs that the exports agree on
-/

namespace ZapTrace.Kicad

open List hiding getElem?_eq_some_iff
open Option Dict

structure Component where
  id : String
  ref : String
  /-- The logical pins. -/
  pins : Dict String Models.Pin := empty
  /-- The physical pads of the package with the logical pins they belong to. -/
  package_pin_map : Dict String String := empty
  /-- The identifiers of the pads of the footprint. -/
  pads : List String := []

structure Design where
  components : Dict String Component := empty
  nets : Dict String Models.Net := empty

/-- A node names a pin of a component, by the identifier or the reference designator. -/
def Component.Named (component : Component) (node : Models.NetNode) (pin_name : String) : Prop :=
  (node.component_ref = component.id ∨ node.component_ref = component.ref) ∧ node.pin_name = pin_name

instance (component : Component) (node : Models.NetNode) (pin_name : String) :
    Decidable (component.Named node pin_name) := inferInstanceAs (Decidable (_ ∧ _))

def Lists (component : Component) (pin_name : String) (net : Models.Net) : Prop :=
  ∃ node ∈ net.nodes, component.Named node pin_name

instance (component : Component) (pin_name : String) (net : Models.Net) :
    Decidable (Lists component pin_name net) := inferInstanceAs (Decidable (∃ _ ∈ _, _))

/-! ## The schematic -/

def physicalPads (component : Component) (pin_name : String) : List String :=
  ((component.package_pin_map.items.filter fun (_, logical) => logical = pin_name).map Prod.fst).mergeSort
    fun a b => a ≤ b

/-- The symbol pins of a logical pin. Without a physical pad it has one with its own name. -/
def symbolPins (component : Component) (pin_name : String) : List String :=
  if physicalPads component pin_name = [] then [pin_name] else physicalPads component pin_name

/-- One node of a net. The logical pins that were seen have their symbol pins. -/
def addNode (component : Component) (state : List (String × String) × List String)
    (entry : Models.Net × Models.NetNode) : List (String × String) × List String :=
  if ¬ (entry.2.component_ref = component.id ∨ entry.2.component_ref = component.ref) ∨
      entry.2.pin_name ∈ state.2 then state
  else (state.1 ++ (symbolPins component entry.2.pin_name).map fun pad => (pad, entry.1.name),
    state.2 ++ [entry.2.pin_name])

def netNodes (nets : List Models.Net) : List (Models.Net × Models.NetNode) :=
  nets.flatMap fun net => net.nodes.map fun node => (net, node)

/-- The symbol pins of a component, with the names of their nets. -/
def schematicNodesForComponent (design : Design) (component : Component) : List (String × String) :=
  ((netNodes design.nets.values).foldl (addNode component) ([], [])).1

/-! ## The PCB -/

/-- The numbers of the nets by their identifiers. The number 0 is for unconnected pads. -/
def netIndex (nets : List Models.Net) : Dict String ℕ :=
  nets.zipIdx.foldl (fun index (net, i) => index.set net.id (i + 1)) empty

def logicalPin (component : Component) (pad : String) : Option String :=
  if component.package_pin_map.items = [] then some pad else component.package_pin_map.get? pad

def pinNetNumber (design : Design) (component : Component) (pad : String) : ℕ :=
  match logicalPin component pad with
  | none => 0
  | some pin_name =>
    match (component.pins.get? pin_name).bind Models.Pin.net with
    | some net_id => ((netIndex design.nets.values).get? net_id).getD 0
    | none =>
      match design.nets.values.find? fun net => Lists component pin_name net with
      | none => 0
      | some net => ((netIndex design.nets.values).get? net.id).getD 0

/-! ## Agreement -/

/-- The exports agree on a pad: it is on a net that lists its logical pin, and its symbol pins have the name
of this net, or no net lists its logical pin, and it is unconnected. -/
inductive PadAgrees (design : Design) (component : Component) (pad : String) : Prop
  | connected {pin_name : String} {i : ℕ} {net : Models.Net} (logical : logicalPin component pad = some pin_name)
      (number : pinNetNumber design component pad = i + 1) (at_number : design.nets.values[i]? = some net)
      (lists : Lists component pin_name net) (label : (pad, net.name) ∈ schematicNodesForComponent design component)
      (only : ∀ name, (pad, name) ∈ schematicNodesForComponent design component → name = net.name)
  | unconnected (unlisted : ∀ pin_name, logicalPin component pad = some pin_name →
        ∀ net ∈ design.nets.values, ¬ Lists component pin_name net)
      (number : pinNetNumber design component pad = 0)
      (no_label : ∀ name, (pad, name) ∉ schematicNodesForComponent design component)

def ConnectivityAgrees (design : Design) : Prop :=
  ∀ component ∈ design.components.values, ∀ pad ∈ component.pads, PadAgrees design component pad

/-! ## Lookups -/

def firstNet (nets : List Models.Net) (component : Component) (pin_name : String) : Option Models.Net :=
  nets.find? fun net => Lists component pin_name net

def lastNet (nets : List Models.Net) (net_id : String) : Option Models.Net :=
  nets.reverse.find? fun net => net.id = net_id

/-- No physical pad belongs to a logical pin. -/
def Unmapped (component : Component) (pin_name : String) : Prop :=
  ∀ pad, component.package_pin_map.get? pad ≠ some pin_name
variable {component : Component}

theorem mem_physicalPads_iff {pin_name pad : String} :
    pad ∈ physicalPads component pin_name ↔ component.package_pin_map.get? pad = some pin_name := by
  unfold physicalPads
  rw [mem_mergeSort, get?_eq_some_iff]
  constructor
  · intro h
    obtain ⟨item, hitem, rfl⟩ := mem_map.mp h
    obtain ⟨hmem, hlogical⟩ := mem_filter.mp hitem
    rwa [← of_decide_eq_true hlogical]
  · intro h
    exact mem_map.mpr ⟨(pad, pin_name), mem_filter.mpr ⟨h, by simp⟩, rfl⟩

theorem physicalPads_eq_nil_iff {pin_name : String} :
    physicalPads component pin_name = [] ↔ Unmapped component pin_name := by
  rw [eq_nil_iff_forall_not_mem]
  exact forall_congr' fun pad => not_congr mem_physicalPads_iff

theorem mem_symbolPins_iff {pin_name pad : String} :
    pad ∈ symbolPins component pin_name ↔
      component.package_pin_map.get? pad = some pin_name ∨ Unmapped component pin_name ∧ pad = pin_name := by
  unfold symbolPins
  split
  · rename_i hnil
    have hunmapped := physicalPads_eq_nil_iff.mp hnil
    rw [mem_singleton]
    exact ⟨fun h => .inr ⟨hunmapped, h⟩, fun h => h.elim (fun hmap => absurd hmap (hunmapped pad)) And.right⟩
  · rename_i hnil
    rw [mem_physicalPads_iff]
    exact ⟨.inl, fun h => h.elim id fun hunmapped => absurd (physicalPads_eq_nil_iff.mpr hunmapped.1) hnil⟩

/-- After any nodes, the logical pins seen are those listed, and each has its symbol pins with the name of the
net of its first node. -/
theorem foldl_addNode (component : Component) (entries : List (Models.Net × Models.NetNode)) :
    let state := entries.foldl (addNode component) ([], [])
    (∀ pin_name, pin_name ∈ state.2 ↔ ∃ entry ∈ entries, component.Named entry.2 pin_name) ∧
      ∀ pad name, (pad, name) ∈ state.1 ↔ ∃ pin_name entry,
        entries.find? (fun entry => component.Named entry.2 pin_name) = some entry ∧
          entry.1.name = name ∧ pad ∈ symbolPins component pin_name := by
  -- the last node adds the symbol pins of its logical pin, unless the pin was seen
  induction entries using reverseRecOn with
  | nil => simp
  | append_singleton entries entry ih =>
    obtain ⟨hseen, hnodes⟩ := ih
    dsimp only at hseen hnodes ⊢
    rw [foldl_concat]
    generalize entries.foldl (addNode component) ([], []) = state at *
    have hfind : ∀ pin_name, pin_name ∉ state.2 →
        entries.find? (fun entry => component.Named entry.2 pin_name) = none := by
      intro pin_name h
      rw [find?_eq_none]
      intro other hother hnamed
      exact h ((hseen pin_name).mpr ⟨other, hother, of_decide_eq_true hnamed⟩)
    have hfound : ∀ pin_name, pin_name ∈ state.2 →
        (entries ++ [entry]).find? (fun entry => component.Named entry.2 pin_name) =
          entries.find? fun entry => component.Named entry.2 pin_name := by
      intro pin_name h
      obtain ⟨other, hother, hnamed⟩ := (hseen pin_name).mp h
      have hsome : (entries.find? fun entry => component.Named entry.2 pin_name).isSome :=
        find?_isSome.mpr ⟨other, hother, decide_eq_true hnamed⟩
      rw [find?_append, or_of_isSome hsome]
    have hother : ∀ pin_name, ¬ component.Named entry.2 pin_name →
        (entries ++ [entry]).find? (fun entry => component.Named entry.2 pin_name) =
          entries.find? fun entry => component.Named entry.2 pin_name := by
      intro pin_name h
      rw [find?_append, find?_cons_of_neg (by simpa using h), find?_nil, or_none]
    unfold addNode
    split
    · rename_i hskip
      have hold : ∀ pin_name, component.Named entry.2 pin_name → pin_name ∈ state.2 := by
        rintro pin_name ⟨hcomponent, rfl⟩
        exact hskip.resolve_left (not_not.mpr hcomponent)
      constructor
      · intro pin_name
        rw [hseen]
        constructor
        · rintro ⟨old, hold, hnamed⟩
          exact ⟨old, mem_append_left _ hold, hnamed⟩
        · rintro ⟨old, hmem, hnamed⟩
          rcases mem_append.mp hmem with hmem | hmem
          · exact ⟨old, hmem, hnamed⟩
          · rw [mem_singleton.mp hmem] at hnamed
            exact (hseen pin_name).mp (hold pin_name hnamed)
      · intro pad name
        rw [hnodes]
        refine exists_congr fun pin_name => exists_congr fun _ => ?_
        by_cases h : component.Named entry.2 pin_name
        · rw [hfound pin_name (hold pin_name h)]
        · rw [hother pin_name h]
    · rename_i hadd
      obtain ⟨hcomponent, hnew⟩ := not_or.mp hadd
      rw [not_not] at hcomponent
      have hentry : component.Named entry.2 entry.2.pin_name := ⟨hcomponent, rfl⟩
      have hnow : (entries ++ [entry]).find? (fun other => component.Named other.2 entry.2.pin_name) =
          some entry := by
        rw [find?_append, hfind _ hnew, none_or, find?_cons_of_pos (by simpa using hentry)]
      constructor
      · intro pin_name
        rw [mem_append, hseen, mem_singleton]
        constructor
        · rintro (⟨old, hold, hnamed⟩ | rfl)
          · exact ⟨old, mem_append_left _ hold, hnamed⟩
          · exact ⟨entry, mem_append_right _ (.head _), hentry⟩
        · rintro ⟨old, hmem, hnamed⟩
          rcases mem_append.mp hmem with hmem | hmem
          · exact .inl ⟨old, hmem, hnamed⟩
          · rw [mem_singleton.mp hmem] at hnamed
            exact .inr hnamed.2.symm
      · intro pad name
        rw [mem_append, hnodes]
        constructor
        · rintro (⟨pin_name, first, hfirst, hname, hpad⟩ | h)
          · refine ⟨pin_name, first, ?_, hname, hpad⟩
            rw [find?_append, hfirst, some_or]
          · obtain ⟨pin, hpin, heq⟩ := mem_map.mp h
            cases heq
            exact ⟨_, entry, hnow, rfl, hpin⟩
        · rintro ⟨pin_name, first, hfirst, rfl, hpad⟩
          by_cases h : component.Named entry.2 pin_name
          · obtain rfl := h.2
            rw [hnow] at hfirst
            cases hfirst
            exact .inr (mem_map_of_mem hpad)
          · rw [hother pin_name h] at hfirst
            exact .inl ⟨pin_name, first, hfirst, rfl, hpad⟩

/-- The first node that names a pin is on the first net that lists it. -/
theorem map_find?_netNodes (nets : List Models.Net) (component : Component) (pin_name : String) :
    ((netNodes nets).find? fun entry => component.Named entry.2 pin_name).map Prod.fst =
      firstNet nets component pin_name := by
  unfold netNodes firstNet
  induction nets with
  | nil => rfl
  | cons net rest ih =>
    rw [flatMap_cons, find?_append, find?_map]
    by_cases hlists : Lists component pin_name net
    · have hsome : (net.nodes.find? fun node => component.Named node pin_name).isSome := by
        obtain ⟨node, hnode, hnamed⟩ := hlists
        exact find?_isSome.mpr ⟨node, hnode, decide_eq_true hnamed⟩
      obtain ⟨node, hnode⟩ := isSome_iff_exists.mp hsome
      rw [find?_cons_of_pos (by simpa using hlists)]
      simp only [Function.comp_def, hnode, map_some, some_or]
    · have hnone : (net.nodes.find? fun node => component.Named node pin_name) = none := by
        rw [find?_eq_none]
        intro node hnode hnamed
        exact hlists ⟨node, hnode, of_decide_eq_true hnamed⟩
      rw [find?_cons_of_neg (by simpa using hlists)]
      simp only [Function.comp_def, hnone, map_none, none_or]
      exact ih

variable {design : Design}

/-- A symbol pin belongs to a logical pin that a net lists, and has the name of the first such net. -/
theorem mem_schematicNodes_iff {pad name : String} :
    (pad, name) ∈ schematicNodesForComponent design component ↔
      ∃ pin_name net, firstNet design.nets.values component pin_name = some net ∧ net.name = name ∧
        (component.package_pin_map.get? pad = some pin_name ∨ Unmapped component pin_name ∧ pad = pin_name) := by
  unfold schematicNodesForComponent
  rw [(foldl_addNode component _).2]
  refine exists_congr fun pin_name => ?_
  rw [← map_find?_netNodes]
  constructor
  · rintro ⟨entry, hentry, hname, hpad⟩
    exact ⟨entry.1, by rw [hentry]; rfl, hname, mem_symbolPins_iff.mp hpad⟩
  · rintro ⟨net, hnet, hname, hpad⟩
    obtain ⟨entry, hentry, rfl⟩ := map_eq_some_iff.mp hnet
    exact ⟨entry, hentry, hname, mem_symbolPins_iff.mpr hpad⟩

theorem netIndex_concat (nets : List Models.Net) (last : Models.Net) :
    netIndex (nets ++ [last]) = (netIndex nets).set last.id (nets.length + 1) := by
  unfold netIndex
  rw [zipIdx_append, foldl_append, Nat.zero_add]
  rfl

theorem lastNet_concat (nets : List Models.Net) (last : Models.Net) (net_id : String) :
    lastNet (nets ++ [last]) net_id = if last.id = net_id then some last else lastNet nets net_id := by
  unfold lastNet
  rw [reverse_concat, find?_cons]
  by_cases h : last.id = net_id <;> simp [h]

theorem get?_netIndex (nets : List Models.Net) (net_id : String) :
    (netIndex nets).get? net_id = none ∧ lastNet nets net_id = none ∨
      ∃ i net, (netIndex nets).get? net_id = some (i + 1) ∧ nets[i]? = some net ∧
        lastNet nets net_id = some net := by
  induction nets using reverseRecOn with
  | nil => exact .inl ⟨rfl, rfl⟩
  | append_singleton nets last ih =>
    rw [netIndex_concat, lastNet_concat, get?_set]
    by_cases h : last.id = net_id
    · rw [if_pos h.symm, if_pos h]
      exact .inr ⟨nets.length, last, rfl, by simp, rfl⟩
    · rw [if_neg (Ne.symm h), if_neg h]
      apply ih.imp_right
      rintro ⟨i, net, hnumber, hnet, hlast⟩
      refine ⟨i, net, hnumber, ?_, hlast⟩
      rw [getElem?_append_left (List.getElem?_eq_some_iff.mp hnet).1, hnet]

/-! ## Which designs the exports agree on -/

def listedNet (design : Design) (component : Component) (pad : String) : Option Models.Net :=
  (logicalPin component pad).bind fun pin_name => firstNet design.nets.values component pin_name

/-- The net identifier that the logical pin of a pad names for itself. -/
def ownNetId (component : Component) (pad : String) : Option String :=
  (logicalPin component pad).bind fun pin_name => (component.pins.get? pin_name).bind Models.Pin.net

/-- What the data of a pad must be. If a net lists its logical pin, then the identifier that the pin names, or
else that of the first such net, is of a net that lists the pin and has the name of the first such net. If no
net lists it, then the pin names no net of the design. A logical pin that has the name of the pad, and that no
pad belongs to, is only listed by nets of this name. -/
structure PadConsistent (design : Design) (component : Component) (pad : String) : Prop where
  listed : ∀ pin_name first, logicalPin component pad = some pin_name →
    firstNet design.nets.values component pin_name = some first →
      ∃ net, lastNet design.nets.values ((ownNetId component pad).getD first.id) = some net ∧
        Lists component pin_name net ∧ net.name = first.name
  unlisted : listedNet design component pad = none →
    ∀ net_id, ownNetId component pad = some net_id → lastNet design.nets.values net_id = none
  namesake : ∀ other, Unmapped component pad → firstNet design.nets.values component pad = some other →
    ∃ first, listedNet design component pad = some first ∧ other.name = first.name

theorem label_iff {pad name : String} :
    (pad, name) ∈ schematicNodesForComponent design component ↔
      (∃ net, listedNet design component pad = some net ∧ net.name = name) ∨
        Unmapped component pad ∧ ∃ net, firstNet design.nets.values component pad = some net ∧ net.name = name := by
  rw [mem_schematicNodes_iff]
  unfold listedNet logicalPin
  constructor
  · rintro ⟨pin_name, net, hnet, hname, hmap | ⟨hunmapped, rfl⟩⟩
    · left
      have hitems : component.package_pin_map.items ≠ [] := by
        intro hnil
        rw [get?_eq_some_iff, hnil] at hmap
        exact not_mem_nil hmap
      rw [if_neg hitems, hmap]
      exact ⟨net, hnet, hname⟩
    · exact .inr ⟨hunmapped, net, hnet, hname⟩
  · rintro (⟨net, hnet, hname⟩ | ⟨hunmapped, net, hnet, hname⟩)
    · obtain ⟨pin_name, hpin, hfirst⟩ := bind_eq_some_iff.mp hnet
      split at hpin
      · rename_i hnil
        cases hpin
        refine ⟨pad, net, hfirst, hname, .inr ⟨fun other hother => ?_, rfl⟩⟩
        rw [get?_eq_some_iff, hnil] at hother
        exact not_mem_nil hother
      · exact ⟨pin_name, net, hfirst, hname, .inl hpin⟩
    · exact ⟨pad, net, hnet, hname, .inr ⟨hunmapped, rfl⟩⟩

theorem pinNetNumber_eq {pad : String} :
    pinNetNumber design component pad =
      ((ownNetId component pad <|> (listedNet design component pad).map Models.Net.id).bind fun net_id =>
        (netIndex design.nets.values).get? net_id).getD 0 := by
  unfold pinNetNumber ownNetId listedNet firstNet
  cases logicalPin component pad with
  | none => rfl
  | some pin_name =>
    dsimp only [bind_some]
    cases (component.pins.get? pin_name).bind Models.Pin.net with
    | some net_id => rfl
    | none =>
      dsimp only
      cases design.nets.values.find? fun net => Lists component pin_name net with
      | none => rfl
      | some net => rfl

theorem firstNet_eq_none_iff {nets : List Models.Net} {pin_name : String} :
    firstNet nets component pin_name = none ↔ ∀ net ∈ nets, ¬ Lists component pin_name net := by
  simp [firstNet]

/-- The exports agree on a pad just when its data are consistent. -/
theorem padAgrees_iff {pad : String} : PadAgrees design component pad ↔ PadConsistent design component pad := by
  constructor
  · intro h
    cases h with
    | @connected pin_name i net logical number at_number lists label only =>
      obtain ⟨first, hfirst⟩ : ∃ first, firstNet design.nets.values component pin_name = some first := by
        rw [← ne_none_iff_exists', ne_eq, firstNet_eq_none_iff]
        exact fun hnone => hnone net (mem_of_getElem? at_number) lists
      have hlisted : listedNet design component pad = some first := by
        rw [listedNet, logical]
        exact hfirst
      have hname : first.name = net.name := only _ (label_iff.mpr (.inl ⟨first, hlisted, rfl⟩))
      refine ⟨fun pin_name' first' hlogical hfirst' => ?_, fun hnone => ?_, fun other hunmapped hother => ?_⟩
      · rw [logical] at hlogical
        cases hlogical
        rw [hfirst] at hfirst'
        cases hfirst'
        have hid : (ownNetId component pad <|> (listedNet design component pad).map Models.Net.id) =
            some ((ownNetId component pad).getD first.id) := by
          rw [hlisted]
          cases ownNetId component pad <;> rfl
        rw [pinNetNumber_eq, hid, bind_some] at number
        rcases get?_netIndex design.nets.values ((ownNetId component pad).getD first.id) with
          ⟨hnone, -⟩ | ⟨j, net', hnumber, hat, hlast⟩
        · rw [hnone] at number
          cases number
        · rw [hnumber] at number
          obtain rfl : j = i := Nat.succ.inj number
          rw [hat] at at_number
          cases at_number
          exact ⟨net, hlast, lists, hname.symm⟩
      · rw [hlisted] at hnone
        cases hnone
      · refine ⟨first, hlisted, ?_⟩
        rw [hname]
        exact only _ (label_iff.mpr (.inr ⟨hunmapped, other, hother, rfl⟩))
    | unconnected unlisted number no_label =>
      refine ⟨fun pin_name first hlogical hfirst => ?_, fun hnone net_id hown => ?_,
        fun other hunmapped hother => ?_⟩
      · rw [firstNet_eq_none_iff.mpr (unlisted pin_name hlogical)] at hfirst
        cases hfirst
      · rw [pinNetNumber_eq, hown] at number
        rcases get?_netIndex design.nets.values net_id with ⟨-, hlast⟩ | ⟨i, net, hnumber, -, -⟩
        · exact hlast
        · change ((netIndex design.nets.values).get? net_id).getD 0 = 0 at number
          rw [hnumber] at number
          cases number
      · exact absurd (label_iff.mpr (.inr ⟨hunmapped, other, hother, rfl⟩)) (no_label other.name)
  · intro h
    cases hlisted : listedNet design component pad with
    | none =>
      refine .unconnected (fun pin_name hlogical => ?_) ?_ fun name hlabel => ?_
      · rw [listedNet, hlogical] at hlisted
        exact firstNet_eq_none_iff.mp hlisted
      · rw [pinNetNumber_eq, hlisted]
        cases hown : ownNetId component pad with
        | none => rfl
        | some net_id =>
          rcases get?_netIndex design.nets.values net_id with ⟨hnone, -⟩ | ⟨i, net, -, -, hlast⟩
          · change ((netIndex design.nets.values).get? net_id).getD 0 = 0
            rw [hnone]
            rfl
          · rw [h.unlisted hlisted net_id hown] at hlast
            cases hlast
      · rcases label_iff.mp hlabel with ⟨net, hnet, -⟩ | ⟨hunmapped, net, hnet, -⟩
        · rw [hlisted] at hnet
          cases hnet
        · obtain ⟨first, hfirst, -⟩ := h.namesake net hunmapped hnet
          rw [hlisted] at hfirst
          cases hfirst
    | some first =>
      obtain ⟨pin_name, hlogical, hfirst⟩ := bind_eq_some_iff.mp hlisted
      obtain ⟨net, hlast, hlists, hname⟩ := h.listed pin_name first hlogical hfirst
      rcases get?_netIndex design.nets.values ((ownNetId component pad).getD first.id) with
        ⟨-, hnone⟩ | ⟨i, net', hnumber, hat, hlast'⟩
      · rw [hlast] at hnone
        cases hnone
      rw [hlast] at hlast'
      cases hlast'
      refine .connected hlogical ?_ hat hlists ?_ fun name hlabel => ?_
      · have hid : (ownNetId component pad <|> (listedNet design component pad).map Models.Net.id) =
            some ((ownNetId component pad).getD first.id) := by
          rw [hlisted]
          cases ownNetId component pad <;> rfl
        rw [pinNetNumber_eq, hid, bind_some, hnumber]
        rfl
      · rw [hname]
        exact label_iff.mpr (.inl ⟨first, hlisted, rfl⟩)
      · rcases label_iff.mp hlabel with ⟨other, hother, rfl⟩ | ⟨hunmapped, other, hother, rfl⟩
        · rw [hlisted] at hother
          cases hother
          exact hname.symm
        · obtain ⟨first', hfirst', heq⟩ := h.namesake other hunmapped hother
          rw [hlisted] at hfirst'
          cases hfirst'
          exact heq.trans hname.symm

/-- The exports agree on the designs with consistent data of every pad. -/
theorem connectivityAgrees_iff (design : Design) :
    ConnectivityAgrees design ↔
      ∀ component ∈ design.components.values, ∀ pad ∈ component.pads, PadConsistent design component pad := by
  unfold ConnectivityAgrees
  simp only [padAgrees_iff]

/-- A part with a pin that is on another net than the one it names. -/
def movedPart : Component where
  id := "R1"
  ref := "R1"
  pins := empty.set "1" { name := "1", type := .passive, net := some "A" }
  pads := ["1"]

def movedDesign : Design where
  components := empty.set "R1" movedPart
  nets := (empty.set "A" { id := "A", name := "A" }).set "B"
    { id := "B", name := "B", nodes := [⟨"R1", "1"⟩] }

theorem not_connectivityAgrees_movedDesign : ¬ ConnectivityAgrees movedDesign := by
  intro h
  -- the pad has the number of the first net, and the second one lists its pin
  cases h movedPart (.head _) "1" (.head _) with
  | @connected pin_name i net logical number at_number lists label only =>
    obtain rfl : i = 0 := Nat.succ.inj (number.symm.trans (by decide))
    obtain rfl : net = { id := "A", name := "A" } := (some.inj at_number).symm
    obtain ⟨node, hnode, -⟩ := lists
    exact absurd hnode not_mem_nil
  | unconnected unlisted number no_label => exact absurd number (by decide)

end ZapTrace.Kicad
