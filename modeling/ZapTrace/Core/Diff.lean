import Mathlib.Data.List.Sort
import Mathlib.Data.String.Basic
import ZapTrace.Core.Models
import ZapTrace.Library.PyValue

/-!
# Differences between two designs

The semantic difference of two designs lists the components and nets that only one of them has, the
values and footprints that differ, and the fields of the board that differ. The kinds of difference
name changes of the nodes of a net as well, but none is computed: the difference is empty exactly when
components, net names and board agree. So it is complete exactly where the nodes agree with them.

## Main results

* `diffDesigns_eq_nil_iff`: when the difference is empty
* `diffComplete_iff`: when it is complete
-/

namespace ZapTrace.Models

open Dict

inductive DiffType
  | componentAdded | componentRemoved | componentChanged
  | netAdded | netRemoved | netNodeAdded | netNodeRemoved
  | valueChanged | footprintChanged | boardChanged
  deriving DecidableEq

structure DiffEntry where
  type : DiffType
  ref : String
  detail : String
  old_value : Option String := none
  new_value : Option String := none
  deriving DecidableEq

/-- `sorted` of the keys a condition selects. -/
def sortedKeys {α : Type} (d : Dict String α) (p : String → Bool) : List String :=
  (d.keys.filter p).insertionSort (· ≤ ·)

/-- The entries of the keys that only the first dictionary has. -/
def onlyIn {α : Type} (type : DiffType) (detail : String → α → String) (a b : Dict String α) :
    List DiffEntry :=
  (sortedKeys a fun k => k ∉ b.keys).filterMap fun k =>
    (a.get? k).map fun x => { type := type, ref := k, detail := detail k x }

def changedEntry (type : DiffType) (ref detail : String) (ov nv : Option String) : List DiffEntry :=
  if ov ≠ nv then
    [{ type := type, ref := ref, detail := detail, old_value := ov, new_value := nv }]
  else []

/-- The changes of a component that both designs have. -/
def componentEntries (ref : String) (oc nc : Component) : List DiffEntry :=
  changedEntry .valueChanged ref s!"{ref} value changed" oc.value nc.value ++
    changedEntry .footprintChanged ref s!"{ref} footprint changed" (some oc.footprint)
      (some nc.footprint)

def boardEntry (py : PyText) (field : String) (changed : Bool) (ov nv : PyValue) : List DiffEntry :=
  if changed then
    [{ type := .boardChanged, ref := "board", detail := s!"board.{field} changed",
       old_value := some (py.str ov), new_value := some (py.str nv) }]
  else []

def boardEntries (py : PyText) (old new : BoardConfig) : List DiffEntry :=
  boardEntry py "width_mm" (old.width_mm ≠ new.width_mm) (.float old.width_mm)
      (.float new.width_mm) ++
    boardEntry py "height_mm" (old.height_mm ≠ new.height_mm) (.float old.height_mm)
      (.float new.height_mm) ++
    boardEntry py "layers" (old.layers ≠ new.layers) (.int old.layers) (.int new.layers)

def diffDesigns (py : PyText) (old new : Design) : List DiffEntry :=
  let old_comps := indexBy Component.ref old.components.values
  let new_comps := indexBy Component.ref new.components.values
  let old_nets := indexBy Net.name old.nets.values
  let new_nets := indexBy Net.name new.nets.values
  onlyIn .componentRemoved (fun ref c => s!"{ref} ({c.type}) removed") old_comps new_comps ++
    onlyIn .componentAdded (fun ref c => s!"{ref} ({c.type}) added") new_comps old_comps ++
    (sortedKeys old_comps fun ref => ref ∈ new_comps.keys).flatMap (fun ref =>
      match old_comps.get? ref, new_comps.get? ref with
      | some oc, some nc => componentEntries ref oc nc
      | _, _ => []) ++
    onlyIn .netRemoved (fun name _ => s!"net '{name}' removed") old_nets new_nets ++
    onlyIn .netAdded (fun name _ => s!"net '{name}' added") new_nets old_nets ++
    boardEntries py old.board new.board

/-! ## In what two designs agree -/

/-- Component references are unique, and so are net names. -/
structure Design.Unique (design : Design) : Prop where
  refs : (design.components.values.map Component.ref).Nodup
  names : (design.nets.values.map Net.name).Nodup

def Design.HasComponent (design : Design) (ref : String) (value : Option String)
    (footprint : String) : Prop :=
  ∃ c ∈ design.components.values, c.ref = ref ∧ c.value = value ∧ c.footprint = footprint

def Design.HasNet (design : Design) (name : String) : Prop := ∃ n ∈ design.nets.values, n.name = name

def Design.HasNode (design : Design) (name : String) (node : NetNode) : Prop :=
  ∃ n ∈ design.nets.values, n.name = name ∧ node ∈ n.nodes

/-- The same references, with the same values and footprints. -/
def SameComponents (old new : Design) : Prop :=
  ∀ ref value footprint,
    old.HasComponent ref value footprint ↔ new.HasComponent ref value footprint

def SameNetNames (old new : Design) : Prop := ∀ name, old.HasNet name ↔ new.HasNet name

def SameNodes (old new : Design) : Prop := ∀ name node, old.HasNode name node ↔ new.HasNode name node

def SameBoard (old new : Design) : Prop :=
  old.board.width_mm = new.board.width_mm ∧ old.board.height_mm = new.board.height_mm ∧
    old.board.layers = new.board.layers

/-- An empty difference means that two designs agree in components, nets, nodes and board. -/
def DiffComplete (py : PyText) (old new : Design) : Prop :=
  diffDesigns py old new = [] →
    SameComponents old new ∧ SameNetNames old new ∧ SameNodes old new ∧ SameBoard old new

/-! ## When the difference is empty -/

theorem mem_sortedKeys {α : Type} {d : Dict String α} {p : String → Bool} {k : String} :
    k ∈ sortedKeys d p ↔ k ∈ d.keys ∧ p k = true := by
  simp [sortedKeys, List.mem_insertionSort]

theorem onlyIn_eq_nil {α : Type} {type : DiffType} {detail : String → α → String}
    {a b : Dict String α} : onlyIn type detail a b = [] ↔ ∀ k ∈ a.keys, k ∈ b.keys := by
  rw [onlyIn, List.filterMap_eq_nil_iff]
  constructor
  · intro h k hk
    by_contra hnot
    obtain ⟨x, hx⟩ := mem_keys_iff.mp hk
    have hnone := h k (mem_sortedKeys.mpr ⟨hk, by simpa using hnot⟩)
    rw [hx] at hnone
    cases hnone
  · intro h k hk
    obtain ⟨hka, hkb⟩ := mem_sortedKeys.mp hk
    exact absurd (h k hka) (by simpa using hkb)

theorem changedEntry_eq_nil {type : DiffType} {ref detail : String} {ov nv : Option String} :
    changedEntry type ref detail ov nv = [] ↔ ov = nv := by
  simp [changedEntry]

theorem componentEntries_eq_nil {ref : String} {oc nc : Component} :
    componentEntries ref oc nc = [] ↔ oc.value = nc.value ∧ oc.footprint = nc.footprint := by
  simp [componentEntries, changedEntry_eq_nil]

theorem boardEntries_eq_nil (py : PyText) {old new : Design} :
    boardEntries py old.board new.board = [] ↔ SameBoard old new := by
  simp [boardEntries, boardEntry, SameBoard]

theorem sameNetNames_iff {old new : Design} (hold : old.Unique) (hnew : new.Unique) :
    SameNetNames old new ↔
      (∀ k ∈ (indexBy Net.name old.nets.values).keys,
        k ∈ (indexBy Net.name new.nets.values).keys) ∧
      (∀ k ∈ (indexBy Net.name new.nets.values).keys,
        k ∈ (indexBy Net.name old.nets.values).keys) := by
  simp only [mem_keys_iff, get?_indexBy_iff hold.names, get?_indexBy_iff hnew.names]
  exact ⟨fun h => ⟨fun k hk => (h k).mp hk, fun k hk => (h k).mpr hk⟩,
    fun h name => ⟨h.1 name, h.2 name⟩⟩

theorem sameComponents_iff {old new : Design} (hold : old.Unique) (hnew : new.Unique) :
    SameComponents old new ↔
      (∀ k ∈ (indexBy Component.ref old.components.values).keys,
        k ∈ (indexBy Component.ref new.components.values).keys) ∧
      (∀ k ∈ (indexBy Component.ref new.components.values).keys,
        k ∈ (indexBy Component.ref old.components.values).keys) ∧
      ∀ ref oc nc, (indexBy Component.ref old.components.values).get? ref = some oc →
        (indexBy Component.ref new.components.values).get? ref = some nc →
          oc.value = nc.value ∧ oc.footprint = nc.footprint := by
  simp only [mem_keys_iff, get?_indexBy_iff hold.refs, get?_indexBy_iff hnew.refs]
  constructor
  · intro h
    refine ⟨?_, ?_, ?_⟩
    · rintro ref ⟨c, hc, rfl⟩
      obtain ⟨c', hc', href, -⟩ := (h c.ref c.value c.footprint).mp ⟨c, hc, rfl, rfl, rfl⟩
      exact ⟨c', hc', href⟩
    · rintro ref ⟨c, hc, rfl⟩
      obtain ⟨c', hc', href, -⟩ := (h c.ref c.value c.footprint).mpr ⟨c, hc, rfl, rfl, rfl⟩
      exact ⟨c', hc', href⟩
    · rintro ref oc nc ⟨hoc, rfl⟩ ⟨hnc, href⟩
      obtain ⟨c', hc', href', hvalue, hfootprint⟩ :=
        (h oc.ref oc.value oc.footprint).mp ⟨oc, hoc, rfl, rfl, rfl⟩
      -- the reference is unique in the new design
      obtain rfl : c' = nc := List.inj_on_of_nodup_map hnew.refs hc' hnc (href'.trans href.symm)
      exact ⟨hvalue.symm, hfootprint.symm⟩
  · rintro ⟨hkeep, hback, hsame⟩ ref value footprint
    constructor
    · rintro ⟨c, hc, rfl, rfl, rfl⟩
      obtain ⟨c', hc', href⟩ := hkeep c.ref ⟨c, hc, rfl⟩
      obtain ⟨hvalue, hfootprint⟩ := hsame c.ref c c' ⟨hc, rfl⟩ ⟨hc', href⟩
      exact ⟨c', hc', href, hvalue.symm, hfootprint.symm⟩
    · rintro ⟨c, hc, rfl, rfl, rfl⟩
      obtain ⟨c', hc', href⟩ := hback c.ref ⟨c, hc, rfl⟩
      obtain ⟨hvalue, hfootprint⟩ := hsame c.ref c' c ⟨hc', href⟩ ⟨hc, rfl⟩
      exact ⟨c', hc', href, hvalue, hfootprint⟩

/-- **When the difference is empty**: when components, net names and board agree. -/
theorem diffDesigns_eq_nil_iff {py : PyText} {old new : Design} (hold : old.Unique)
    (hnew : new.Unique) :
    diffDesigns py old new = [] ↔
      SameComponents old new ∧ SameNetNames old new ∧ SameBoard old new := by
  rw [sameComponents_iff hold hnew, sameNetNames_iff hold hnew, ← boardEntries_eq_nil py]
  simp only [diffDesigns, List.append_eq_nil_iff, onlyIn_eq_nil, List.flatMap_eq_nil_iff]
  constructor
  · rintro ⟨⟨⟨⟨⟨hkeep, hback⟩, hchanged⟩, hnets⟩, hnets'⟩, hboard⟩
    refine ⟨⟨hkeep, hback, ?_⟩, ⟨hnets, hnets'⟩, hboard⟩
    intro ref oc nc hoc hnc
    have hmem : ref ∈ sortedKeys (indexBy Component.ref old.components.values)
        fun ref => ref ∈ (indexBy Component.ref new.components.values).keys := by
      apply mem_sortedKeys.mpr
      exact ⟨mem_keys_iff.mpr ⟨oc, hoc⟩, decide_eq_true (mem_keys_iff.mpr ⟨nc, hnc⟩)⟩
    have hentries := hchanged ref hmem
    simp only [hoc, hnc] at hentries
    exact componentEntries_eq_nil.mp hentries
  · rintro ⟨⟨hkeep, hback, hsame⟩, ⟨hnets, hnets'⟩, hboard⟩
    refine ⟨⟨⟨⟨⟨hkeep, hback⟩, ?_⟩, hnets⟩, hnets'⟩, hboard⟩
    intro ref _
    split
    · rename_i oc nc hoc hnc
      exact componentEntries_eq_nil.mpr (hsame ref oc nc hoc hnc)
    · rfl

/-- **When the difference is complete**: two designs that agree in components, net names and board
must agree in the nodes of their nets. -/
theorem diffComplete_iff (py : PyText) {old new : Design} (hold : old.Unique) (hnew : new.Unique) :
    DiffComplete py old new ↔
      ¬ (SameComponents old new ∧ SameNetNames old new ∧ SameBoard old new ∧
        ∃ name node, ¬ (old.HasNode name node ↔ new.HasNode name node)) := by
  rw [DiffComplete, diffDesigns_eq_nil_iff hold hnew]
  constructor
  · rintro h ⟨hcomponents, hnames, hboard, name, node, hdiffer⟩
    obtain ⟨-, -, hnodes, -⟩ := h ⟨hcomponents, hnames, hboard⟩
    exact hdiffer (hnodes name node)
  · rintro h ⟨hcomponents, hnames, hboard⟩
    refine ⟨hcomponents, hnames, fun name node => ?_, hboard⟩
    by_contra hdiffer
    exact h ⟨hcomponents, hnames, hboard, name, node, hdiffer⟩

/-! ## A node that moves -/

/-- A resistor with one pin on the net `VCC`, and nothing on the net `GND`. -/
def pulledUp : Design where
  components := empty.set "c1" { id := "c1", ref := "R1", type := "resistor", value := some "10k" }
  nets := (empty.set "n1" { id := "n1", name := "VCC", nodes := [⟨"R1", "1"⟩] }).set "n2"
    { id := "n2", name := "GND" }

/-- The same with the pin on the net `GND`. -/
def pulledDown : Design :=
  { pulledUp with
    nets := (empty.set "n1" { id := "n1", name := "VCC" }).set "n2"
      { id := "n2", name := "GND", nodes := [⟨"R1", "1"⟩] } }

theorem nets_pulledUp : pulledUp.nets.values =
    [{ id := "n1", name := "VCC", nodes := [⟨"R1", "1"⟩] }, { id := "n2", name := "GND" }] := rfl

theorem nets_pulledDown : pulledDown.nets.values =
    [{ id := "n1", name := "VCC" }, { id := "n2", name := "GND", nodes := [⟨"R1", "1"⟩] }] := rfl

theorem pulledUp_unique : pulledUp.Unique := ⟨by decide, by decide⟩

theorem pulledDown_unique : pulledDown.Unique := ⟨by decide, by decide⟩

/-- Conversions for designs of the same board, where no value is converted. -/
def noText : PyText := ⟨fun _ => "", fun _ => ""⟩

/-- The difference of the two is empty, although the pin is on another net. -/
theorem not_diffComplete_pulledDown : ¬ DiffComplete noText pulledUp pulledDown := by
  intro h
  have hnames : SameNetNames pulledUp pulledDown := fun name => by
    simp [Design.HasNet, nets_pulledUp, nets_pulledDown]
  obtain ⟨-, -, hnodes, -⟩ := h ((diffDesigns_eq_nil_iff pulledUp_unique pulledDown_unique).mpr
    ⟨fun ref value footprint => Iff.rfl, hnames, rfl, rfl, rfl⟩)
  have hnode := hnodes "VCC" ⟨"R1", "1"⟩
  simp [Design.HasNode, nets_pulledUp, nets_pulledDown] at hnode

/-- A net that is there in one design only is found, and the nodes of the others agree. -/
theorem diffComplete_without_ground :
    DiffComplete noText pulledUp { pulledUp with nets := pulledUp.nets.erase "n2" } := by
  rw [diffComplete_iff noText pulledUp_unique ⟨by decide, by decide⟩]
  rintro ⟨-, hnames, -, -⟩
  have h := (hnames "GND").mp ⟨_, List.mem_cons_of_mem _ List.mem_cons_self, rfl⟩
  have hnets : ({ pulledUp with nets := pulledUp.nets.erase "n2" } : Design).nets.values =
      [{ id := "n1", name := "VCC", nodes := [⟨"R1", "1"⟩] }] := rfl
  simp [Design.HasNet, hnets] at h

end ZapTrace.Models
