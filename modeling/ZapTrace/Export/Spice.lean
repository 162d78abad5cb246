import Mathlib.Data.List.Nodup
import Mathlib.Data.List.Perm.Subperm
import Std.Data.String.ToNat
import ZapTrace.Core.Models
import ZapTrace.Library.PyValue

/-!
# SPICE netlists

The exporter gives every net a label: ground nets the label `0`, and the others their names with every character
that is no ASCII letter, digit or underscore replaced, numbered when the label is taken. A pin that is on no net
gets a label from the reference and the name of the pin, which is not compared with the others. Resistors,
capacitors, inductors and diodes become element cards; other components, and those without a value or a second
pin, become comments.

## Main results

* `freshLabel_not_mem`: a label that is not taken is found
* `buildNodeMap_spec`: the labels of nets that are not grounds are different from each other and from `0`
-/

namespace ZapTrace.Spice

open Models List Dict

/-! ## Element classification -/

/-- `str.lower`, `str.upper`: on the letters of the keywords below no other character becomes one. -/
def lower (s : String) : String := String.ofList (s.toList.map Char.toLower)

def upper (s : String) : String := String.ofList (s.toList.map Char.toUpper)

def startsWithAny (s : String) (prefixes : List String) : Bool :=
  prefixes.any fun p => p.toList.isPrefixOf s.toList

/-- `needle in s` -/
def containsText (needle s : String) : Bool := s.toList.tails.any fun rest => needle.toList.isPrefixOf rest

/-- The letters of the elements that are written as cards. -/
inductive ElementClass
  | R | C | L | D
  deriving DecidableEq

def ElementClass.letter : ElementClass → Char
  | R => 'R'
  | C => 'C'
  | L => 'L'
  | D => 'D'

def elementClass (comp : Models.Component) : Option ElementClass :=
  let t := pyStrip (lower comp.type)
  if t ∈ ["r", "res", "resistor"] ∨ startsWithAny t ["res-", "res_", "resistor"] then some .R
  else if t ∈ ["c", "cap", "capacitor"] ∨ startsWithAny t ["cap-", "cap_", "capacitor"] then some .C
  else if t ∈ ["l", "ind", "inductor"] ∨ startsWithAny t ["ind-", "ind_", "inductor"] then some .L
  else if t ∈ ["d", "diode", "led"] ∨ containsText "diode" t ∨ startsWithAny t ["led", "led-", "led_"] then some .D
  else none

/-- A unit at the end of a value, in any case. -/
def isUnit : List Char → Bool
  | [a] => a ∈ ['Ω', 'ω', 'Ω', 'f', 'F', 'h', 'H']
  | [a, b, c] => a ∈ ['o', 'O'] && b ∈ ['h', 'H'] && c ∈ ['m', 'M']
  | [a, b, c, d] => a ∈ ['o', 'O'] && b ∈ ['h', 'H'] && c ∈ ['m', 'M'] && d ∈ ['s', 'S', 'ſ']
  | _ => false

/-- A value without the unit that it ends with. -/
def dropUnit : List Char → List Char
  | [] => []
  | c :: rest => if isUnit (c :: rest) then [] else c :: dropUnit rest

def spiceValue (raw : Option String) : String :=
  match raw with
  | none => ""
  | some raw => pyStrip (String.ofList (dropUnit (pyStrip raw).toList))

/-- A word character: an ASCII letter, a digit or an underscore. -/
def isWordChar (c : Char) : Bool := c.isAlphanum || c = '_'

def stripUnderscores (cs : List Char) : List Char :=
  ((cs.dropWhile (· = '_')).reverse.dropWhile (· = '_')).reverse

def sanitizeNode (name : String) : String :=
  let safe := String.ofList (stripUnderscores (name.toList.map fun c => if isWordChar c then c else '_'))
  if safe = "" then "n" else safe

/-! ## Node mapping -/

def numbered (base : String) (suffix : ℕ) : String := s!"{base}_{suffix}"

/-- The loop over the numbers of a label, for a number of rounds. -/
def labelLoop (used : List String) (base : String) : ℕ → String → ℕ → String
  | 0, label, _ => label
  | rounds + 1, label, suffix =>
    if label ∈ used then labelLoop used base rounds (numbered base suffix) (suffix + 1) else label

/-- A label that is not taken: the plain one, or the first number that is free. -/
def freshLabel (used : List String) (base : String) : String := labelLoop used base (used.length + 1) base 1

/-- The label of a net that is not a ground, after those in the table. -/
def addLabel (state : Dict String String × List String) (item : String × Models.Net) :
    Dict String String × List String :=
  if item.1 ∈ state.1.keys then state
  else
    let label := freshLabel state.2 (sanitizeNode item.2.name)
    (state.1.set item.1 label, state.2 ++ [label])

def groundMap (design : Design) : Dict String String :=
  design.nets.items.foldl (fun node_map item =>
    if item.2.type = .ground then node_map.set item.1 "0" else node_map) .empty

/-- The labels of the nets, by their keys. -/
def buildNodeMap (design : Design) : Dict String String :=
  (design.nets.items.foldl addLabel (groundMap design, ["0"])).1

/-- The label of a pin that is on no net. -/
def danglingNode (ref pin_name : String) : String := sanitizeNode s!"NC_{ref}_{pin_name}"

def pinNode (design : Design) (node_map : Dict String String) (ref pin_name : String) : String :=
  match design.getNetForPin ref pin_name with
  | some net => (node_map.get? net.id).getD (sanitizeNode net.name)
  | none => danglingNode ref pin_name

def elementName (ref : String) (cls : ElementClass) : String :=
  if ref.toList.head?.map Char.toUpper = some cls.letter then ref else String.ofList (cls.letter :: ref.toList)

/-- A terminal of an element: a pin and its node. -/
structure Terminal where
  ref : String
  pin_name : String
  node : String
  deriving DecidableEq

structure Card where
  name : String
  first : Terminal
  second : Terminal
  value : String

inductive ComponentLine
  | element (card : Card)
  | comment (text : String)

def ComponentLine.text : ComponentLine → String
  | element card => s!"{card.name} {card.first.node} {card.second.node} {card.value}"
  | comment text => text

def terminal (design : Design) (node_map : Dict String String) (component : Models.Component) (pin_name : String) :
    Terminal :=
  ⟨component.ref, pin_name, pinNode design node_map component.ref pin_name⟩

def genericDiodeModel : String := "DGEN"

/-- The pins at the ends of a diode: those that are named for it, or the first two. -/
def diodeTerminals (comp : Models.Component) : Option (String × String) :=
  match comp.pins.keys with
  | first :: second :: rest =>
    let pins := first :: second :: rest
    match pins.find? fun p => upper p ∈ ["ANODE", "A", "A+", "+"],
      pins.find? fun p => upper p ∈ ["CATHODE", "K", "C", "-"] with
    | some anode, some cathode => some (anode, cathode)
    | _, _ => some (first, second)
  | _ => none

def passiveCard (design : Design) (node_map : Dict String String) (component : Models.Component) (cls : ElementClass)
    (pins : List String) : ComponentLine × Bool :=
  let value := spiceValue component.value
  let unsupported :=
    let reason := if value = "" then "no value" else "needs 2 pins"
    (.comment s!"* Unsupported: {component.ref} ({component.type}) [{reason}]", true)
  match pins with
  | first :: second :: _ =>
    if value ≠ "" then
      (.element ⟨elementName component.ref cls, terminal design node_map component first,
        terminal design node_map component second, value⟩, false)
    else unsupported
  | _ => unsupported

def diodeCard (design : Design) (node_map : Dict String String) (component : Models.Component) : ComponentLine × Bool :=
  match diodeTerminals component with
  | none => (.comment s!"* Unsupported: {component.ref} ({component.type}) [needs 2 pins]", true)
  | some (anode, cathode) =>
    (.element ⟨elementName component.ref .D, terminal design node_map component anode,
      terminal design node_map component cathode, genericDiodeModel⟩, false)

def unsupportedComponentCard (design : Design) (node_map : Dict String String) (component : Models.Component)
    (pins : List String) : String :=
  let nodes :=
    if pins = [] then "(no pins)"
    else " ".intercalate (pins.map (pinNode design node_map component.ref))
  s!"* Unsupported: {component.ref} ({component.type}) [no SPICE model] nodes: {nodes}"

/-- The line of a component, whether it is skipped, and whether it needs the model of a diode. -/
def componentCard (design : Design) (node_map : Dict String String) (component : Models.Component) :
    ComponentLine × Bool × Bool :=
  let pins := component.pins.keys
  match elementClass component with
  | some .D =>
    let (card, skipped) := diodeCard design node_map component
    (card, skipped, !skipped)
  | some cls =>
    let (card, skipped) := passiveCard design node_map component cls pins
    (card, skipped, false)
  | none => (.comment (unsupportedComponentCard design node_map component pins), true, false)

/-- The components in the order of their references. -/
def sortedComponents (design : Design) : List Models.Component :=
  design.components.values.mergeSort fun c c' => decide (c.ref ≤ c'.ref)

def componentLines (design : Design) : List (ComponentLine × Bool × Bool) :=
  (sortedComponents design).map (componentCard design (buildNodeMap design))

def exportSpiceNetlist (design : Design) (meta_name : String) (title : Option String)
    (extra_cards : Option (List String)) : String :=
  let heading := match title with
    | none => meta_name
    | some title => if title = "" then meta_name else title
  let components := componentLines design
  let skipped_count := components.countP fun c => c.2.1
  let lines :=
    [s!"* {heading}",
      "* Generated by ZapTrace SPICE export — review required.",
      "* Active devices without a SPICE model are listed as comments below."] ++
    components.map (fun c => c.1.text) ++
    (if components.any (fun c => c.2.2) then [s!".model {genericDiodeModel} D()"] else []) ++
    (if skipped_count ≠ 0 then [s!"* {skipped_count} component(s) not simulated (no SPICE model or value)."] else []) ++
    (match extra_cards with
      | some (card :: cards) => "* Behavioral DC bias models (ideal sources):" :: card :: cards
      | _ => []) ++
    [".end"]
  "\n".intercalate lines ++ "\n"

/-- The card of a line, if it is one. -/
def ComponentLine.card? : ComponentLine → Option Card
  | .element card => some card
  | .comment _ => none

/-- The element cards of a netlist. -/
def cards (design : Design) : List Card := (componentLines design).filterMap fun c => c.1.card?

/-! ## Labels -/

/-- The labels that are tried for a net: the plain one, and then the numbered ones. -/
def candidate (base : String) : ℕ → String
  | 0 => base
  | suffix + 1 => numbered base (suffix + 1)

theorem numbered_inj {base : String} {m n : ℕ} (h : numbered base m = numbered base n) : m = n := by
  have hlist := congrArg String.toList h
  simp only [numbered, String.toList_append] at hlist
  have hdigits := congrArg (fun ds => Nat.ofDigitChars 10 ds 0) (append_cancel_left hlist)
  simpa [Nat.ofDigitChars_toDigits] using hdigits

theorem numbered_ne (base : String) (n : ℕ) : numbered base n ≠ base := by
  intro h
  have hlength := congrArg (fun s => s.toList.length) h
  simp only [numbered, String.toList_append, length_append] at hlength
  change base.toList.length + 1 + _ = base.toList.length at hlength
  omega

theorem candidate_inj {base : String} {m n : ℕ} (h : candidate base m = candidate base n) : m = n := by
  cases m with
  | zero =>
    cases n with
    | zero => rfl
    | succ n => exact absurd h.symm (numbered_ne base _)
  | succ m =>
    cases n with
    | zero => exact absurd h (numbered_ne base _)
    | succ n => exact numbered_inj h

theorem labelLoop_not_mem {used : List String} {base : String} {rounds i j : ℕ} (hj : j ≤ i) (hi : i < j + rounds)
    (hfree : candidate base i ∉ used) : labelLoop used base rounds (candidate base j) (j + 1) ∉ used := by
  induction rounds generalizing j with
  | zero => exact absurd hi (not_lt.mpr hj)
  | succ rounds ih =>
    rw [labelLoop]
    split
    · -- the label is taken, so it is not the free one
      rename_i htaken
      have hne : j ≠ i := fun heq => hfree (heq ▸ htaken)
      exact @ih (j + 1) (lt_of_le_of_ne hj hne) (by omega)
    · assumption

/-- **A free label** is found: there are more candidates than labels that are taken. -/
theorem freshLabel_not_mem (used : List String) (base : String) : freshLabel used base ∉ used := by
  obtain ⟨i, hi, hfree⟩ : ∃ i < used.length + 1, candidate base i ∉ used := by
    by_contra hnone
    have hsub : (range (used.length + 1)).map (candidate base) ⊆ used := by
      intro label hlabel
      obtain ⟨i, hi, rfl⟩ := mem_map.mp hlabel
      by_contra hnot
      exact hnone ⟨i, mem_range.mp hi, hnot⟩
    have hnodup : ((range (used.length + 1)).map (candidate base)).Nodup :=
      nodup_range.map (f := candidate base) fun _ _ => candidate_inj
    have hlength := (hnodup.subperm hsub).length_le
    rw [length_map, length_range] at hlength
    omega
  exact labelLoop_not_mem (Nat.zero_le i) (by omega) hfree

/-- The labels in a table are taken, and two nets have one label only if it is `0`. -/
structure Labelled (state : Dict String String × List String) : Prop where
  zero : "0" ∈ state.2
  taken : ∀ id label, state.1.get? id = some label → label ∈ state.2
  apart : ∀ id id' label, state.1.get? id = some label → state.1.get? id' = some label → label ≠ "0" → id = id'
variable {state : Dict String String × List String}

theorem Labelled.addLabel (h : Labelled state) (item : String × Models.Net) : Labelled (addLabel state item) := by
  unfold Spice.addLabel
  split
  · exact h
  · have hfresh := freshLabel_not_mem state.2 (sanitizeNode item.2.name)
    refine ⟨mem_append_left _ h.zero, ?_, ?_⟩
    · intro id label hget
      rw [get?_set] at hget
      split at hget
      · exact mem_append_right _ (mem_singleton.mpr (Option.some.inj hget).symm)
      · exact mem_append_left _ (h.taken id label hget)
    · intro id id' label hget hget' hne
      rw [get?_set] at hget hget'
      split at hget <;> split at hget'
      · simp_all
      · exact absurd (h.taken id' label hget') (Option.some.inj hget ▸ hfresh)
      · exact absurd (h.taken id label hget) (Option.some.inj hget' ▸ hfresh)
      · exact h.apart id id' label hget hget' hne

theorem get?_addLabel_of_some {id label : String} (h : state.1.get? id = some label) (item : String × Models.Net) :
    (addLabel state item).1.get? id = some label := by
  unfold addLabel
  split
  · exact h
  · rename_i hnot
    have hne : id ≠ item.1 := by
      rintro rfl
      exact hnot (mem_keys_iff.mpr ⟨label, h⟩)
    rw [get?_set_of_ne _ _ hne, h]

theorem get?_foldl_addLabel_of_some {id label : String} (items : List (String × Models.Net))
    (h : state.1.get? id = some label) : (items.foldl addLabel state).1.get? id = some label := by
  induction items generalizing state with
  | nil => exact h
  | cons item items ih => exact ih (get?_addLabel_of_some h item)

theorem labelled_foldl_addLabel (items : List (String × Models.Net)) (h : Labelled state) :
    Labelled (items.foldl addLabel state) := by
  induction items generalizing state with
  | nil => exact h
  | cons item items ih => exact ih (h.addLabel item)

theorem exists_label (items : List (String × Models.Net)) (h : Labelled state) {item : String × Models.Net}
    (hitem : item ∈ items) (hnew : item.1 ∉ state.1.keys) :
    ∃ label, (items.foldl addLabel state).1.get? item.1 = some label ∧ label ≠ "0" := by
  induction items generalizing state with
  | nil => cases hitem
  | cons first items ih =>
    by_cases hkey : first.1 = item.1
    · have hget : (addLabel state first).1.get? item.1 = some (freshLabel state.2 (sanitizeNode first.2.name)) := by
        unfold addLabel
        rw [if_neg (hkey ▸ hnew), hkey, get?_set_self]
      exact ⟨_, get?_foldl_addLabel_of_some items hget, fun heq =>
        freshLabel_not_mem state.2 (sanitizeNode first.2.name) (heq ▸ h.zero)⟩
    · have hrest : item ∈ items := by
        rcases mem_cons.mp hitem with rfl | hrest
        · exact absurd rfl hkey
        · exact hrest
      have hnew' : item.1 ∉ (addLabel state first).1.keys := by
        unfold addLabel
        split
        · exact hnew
        · rw [not_mem_keys_iff, get?_set_of_ne _ _ (Ne.symm hkey)]
          exact not_mem_keys_iff.mp hnew
      exact ih (h.addLabel first) hrest hnew'

theorem get?_groundMap (design : Design) (id : String) :
    (groundMap design).get? id =
      if ∃ net, design.nets.get? id = some net ∧ net.type = .ground then some "0" else none := by
  have hloop : ∀ (items : List (String × Models.Net)) (node_map : Dict String String),
      (items.foldl (fun node_map item =>
        if item.2.type = .ground then node_map.set item.1 "0" else node_map) node_map).get? id =
        if ∃ item ∈ items, item.1 = id ∧ item.2.type = .ground then some "0" else node_map.get? id := by
    intro items
    induction items with
    | nil => simp
    | cons item items ih =>
      intro node_map
      rw [foldl_cons, ih]
      simp only [mem_cons, or_and_right, exists_or, exists_eq_left]
      by_cases hrest : ∃ item ∈ items, item.1 = id ∧ item.2.type = .ground
      · rw [if_pos hrest, if_pos (Or.inr hrest)]
      · rw [if_neg hrest]
        by_cases hground : item.2.type = .ground
        · by_cases hid : item.1 = id
          · simp [hground, hid]
          · simp [hground, hid, get?_set, Ne.symm hid, hrest]
        · simp [hground, hrest]
  rw [groundMap, hloop, get?_empty]
  have hiff : (∃ item ∈ design.nets.items, item.1 = id ∧ item.2.type = .ground) ↔
      ∃ net, design.nets.get? id = some net ∧ net.type = .ground := by
    simp only [get?_eq_some_iff]
    constructor
    · rintro ⟨⟨id', net⟩, hitem, rfl, hground⟩
      exact ⟨net, hitem, hground⟩
    · rintro ⟨net, hitem, hground⟩
      exact ⟨(id, net), hitem, rfl, hground⟩
  simp only [hiff]

theorem labelled_groundMap (design : Design) : Labelled (groundMap design, ["0"]) := by
  have hzero : ∀ id label, (groundMap design).get? id = some label → label = "0" := by
    intro id label hget
    rw [get?_groundMap] at hget
    split at hget
    · exact (Option.some.inj hget).symm
    · cases hget
  refine ⟨mem_singleton_self _, ?_, ?_⟩
  · intro id label hget
    exact mem_singleton.mpr (hzero id label hget)
  · intro id id' label hget _ hne
    exact absurd (hzero id label hget) hne

/-- **The labels**: grounds have the label `0`, and every other net has one of its own. -/
theorem buildNodeMap_spec (design : Design) :
    (∀ id net, design.nets.get? id = some net → net.type = .ground → (buildNodeMap design).get? id = some "0") ∧
      (∀ id net, design.nets.get? id = some net → net.type ≠ .ground →
        ∃ label, (buildNodeMap design).get? id = some label ∧ label ≠ "0") ∧
      ∀ id id' label, (buildNodeMap design).get? id = some label → (buildNodeMap design).get? id' = some label →
        label ≠ "0" → id = id' := by
  refine ⟨?_, ?_, (labelled_foldl_addLabel _ (labelled_groundMap design)).apart⟩
  · intro id net hnet hground
    apply get?_foldl_addLabel_of_some
    rw [get?_groundMap, if_pos ⟨net, hnet, hground⟩]
  · intro id net hnet hground
    apply exists_label _ (labelled_groundMap design) (get?_eq_some_iff.mp hnet)
    rw [not_mem_keys_iff, get?_groundMap, if_neg]
    rintro ⟨net', hnet', hground'⟩
    exact hground (Option.some.inj (hnet.symm.trans hnet') ▸ hground')

end ZapTrace.Spice
