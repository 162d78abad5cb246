import Mathlib
import ZapTrace.Eda.Eagle

/-!
# The Eagle round trip

What an import collects is exported and imported again. The searches of the second import meet the parts
of the exported document at different depths: the outline is made of all wires on layer 20, so a track on
this layer is read twice, and every component is written as a placed element, so one that was never placed
comes back placed.

## Main results

* `collects_export`: what the second import collects
* `sameBoard_iff`: the second import agrees with the first exactly when no track is on layer 20 and every
  component is placed
-/

namespace ZapTrace.Eagle

open List hiding filter_filter iter map_id map_map mem_map
open Element Option

variable {F : Type} {nums : Numbers F}

/-! ## Reading what was written -/

theorem Numbers.float_str (x default : F) : nums.float (some (nums.str x)) default = x := by
  simp [Numbers.float, nums.str_ne_empty x, nums.toFloat_str x]

/-- An integer that was read, or a default of the import. -/
def Numbers.Readable (nums : Numbers F) (n : ℤ) : Prop := nums.toInt (toString n) = some n

theorem Numbers.Readable.of_nat {n : ℕ} (h : (toString n).length ≤ 640) : nums.Readable n :=
  nums.toInt_digits n h

theorem Numbers.readable_int {val : Option String} {default : ℤ} (h : nums.Readable default) :
    nums.Readable (nums.int val default) := by
  unfold Numbers.int
  split
  · exact h
  · split
    · exact h
    · rename_i val _
      cases hint : nums.toInt val with
      | none => exact h
      | some n => exact nums.toInt_toString hint

theorem toString_int_ne_empty (n : ℤ) : toString n ≠ "" := by
  cases n with
  | ofNat n => exact Nat.repr_ne_empty
  | negSucc n =>
    intro hempty
    have hlength : (toString (Int.negSucc n)).length = 0 := by rw [hempty]; rfl
    rw [show toString (Int.negSucc n) = "-" ++ (n + 1).repr from rfl, String.length_append] at hlength
    exact absurd (Nat.eq_zero_of_add_eq_zero_right hlength) (by decide)

theorem Numbers.Readable.int_repr {n : ℤ} (h : nums.Readable n) (default : ℤ) :
    nums.int (some n.repr) default = n := by
  show nums.int (some (toString n)) default = n
  have hread : nums.toInt (toString n) = some n := h
  rw [Numbers.int, if_neg (toString_int_ne_empty n), hread]
  rfl

/-! ## The collections of an import -/

def placeRound (components : Dict String (Dict String String)) (elem : Element) : Dict String (Dict String String) :=
  if elem.get "name" "" = "" then components
  else components.set (elem.get "name" "") (placeElement ((components.get? (elem.get "name" "")).getD .empty) elem)

def signalNets (nets : Dict String (List String)) (signal : Element) : Dict String (List String) :=
  if signal.get "name" "" = "" then nets
  else nets.set (signal.get "name" "") (refsOf "contactref" "element" signal)

def signalTracks (nums : Numbers F) (signal : Element) : List (EagleTrack F) :=
  if signal.get "name" "" = "" then [] else (signal.findall "wire").map (trackOf nums (signal.get "name" ""))

/-- The collections of an import as functions of the document. -/
structure Collects (nums : Numbers F) (root : Element) (r : EagleImportResult F) : Prop where
  components : r.components = (root.iter "element").foldl placeRound ((root.iter "component").foldl parseComponent .empty)
  nets : r.nets = (root.iter "net").foldl parseSchematicNet ((root.iter "signal").foldl signalNets .empty)
  tracks : r.tracks = (root.iter "signal").flatMap (signalTracks nums)
  vias : r.vias = (root.iter "via").map (viaOf nums)
  layers : r.layers = (root.iter "layer").map (layerOf nums)
  board_outline : r.board_outline =
    ((root.iter "wire").filter fun wire => wire.get? "layer" = some "20").map (outlineWire nums)

theorem parseEaglePackages_eq (nums : Numbers F) (root : Element) (result : EagleImportResult F) :
    ∃ packages unsupported, parseEaglePackages nums root result =
      { result with packages := packages, unsupported := unsupported } := by
  unfold parseEaglePackages
  split
  · exact ⟨result.packages, result.unsupported, rfl⟩
  · exact ⟨_, _, rfl⟩

theorem foldl_parseElement (nums : Numbers F) (elems : List Element) (result : EagleImportResult F) :
    ∃ pads, elems.foldl (parseElement nums) result =
      { result with components := elems.foldl placeRound result.components, pads := pads } := by
  induction elems generalizing result with
  | nil => exact ⟨result.pads, rfl⟩
  | cons elem elems ih =>
    obtain ⟨pads, hpads⟩ := ih (parseElement nums result elem)
    refine ⟨pads, ?_⟩
    rw [foldl_cons, hpads, foldl_cons]
    by_cases href : elem.get "name" "" = ""
    · simp [parseElement, placeRound, href]
    · simp [parseElement, placeRound, href]

theorem foldl_parseSignal (signals : List Element) (result : EagleImportResult F) :
    signals.foldl (parseSignal nums) result =
      { result with
        nets := signals.foldl signalNets result.nets
        tracks := result.tracks ++ signals.flatMap (signalTracks nums) } := by
  induction signals generalizing result with
  | nil => simp
  | cons signal signals ih =>
    rw [foldl_cons, ih, foldl_cons, flatMap_cons]
    by_cases hname : signal.get "name" "" = ""
    · simp [parseSignal, signalNets, signalTracks, hname]
    · simp [parseSignal, signalNets, signalTracks, hname]

theorem exists_parseRoot {root : Element} (h : root.tag? = some "eagle") :
    ∃ r, parseRoot nums root = .ok r ∧ Collects nums root r := by
  refine ⟨_, if_pos h, ?_⟩
  obtain ⟨packages, unsupported, hpackages⟩ := parseEaglePackages_eq nums root
    (parseEagleLayers nums root { schema_version := root.get "version" "" })
  obtain ⟨pads, hpads⟩ := foldl_parseElement nums (root.iter "element")
    (parseEagleComponents root (parseEaglePackages nums root
      (parseEagleLayers nums root { schema_version := root.get "version" "" })))
  constructor
  all_goals
    simp only [recordEagleUnsupported, parseEagleOutline, parseEagleVias, parseEagleSchematicNets,
      parseEagleSignals, foldl_parseSignal, parseEagleElements]
    rw [hpads]
    simp only [parseEagleComponents, hpackages]
    simp only [parseEagleLayers, nil_append]

theorem collects_of_parseRoot {root : Element} {r : EagleImportResult F} (h : parseRoot nums root = .ok r) :
    Collects nums root r := by
  by_cases htag : root.tag? = some "eagle"
  · obtain ⟨r', hr', hcollects⟩ := exists_parseRoot htag
    rw [h] at hr'
    exact Except.ok.inj hr' ▸ hcollects
  · rw [parseRoot, if_neg htag] at h
    cases h

/-! ## The searches in an exported document -/

section Searches

variable (nums) (r : EagleImportResult F)

def signalWires (net_name : String) : List Element :=
  (((tracksByNet r).get? net_name).getD []).map fun track => wireElement nums track (toString track.layer)

theorem iter_signalElement (name net_name : String) (hsignal : name ≠ "signal") (hwire : name ≠ "wire")
    (hcontact : name ≠ "contactref") : (signalElement nums r net_name).iter name = [] := by
  rw [signalElement, iter, if_neg hsignal.symm, iterAll_append, iterAll_leaves,
    if_neg hcontact.symm]
  unfold wireElement
  rw [iterAll_leaves, if_neg hwire.symm]
  rfl

theorem iter_wire_signalElement (net_name : String) :
    (signalElement nums r net_name).iter "wire" = signalWires nums r net_name := by
  rw [signalElement, iter, if_neg (by decide), iterAll_append, iterAll_leaves,
    if_neg (by decide), nil_append]
  unfold wireElement
  rw [iterAll_leaves, if_pos rfl]
  rfl

theorem iter_signal_signalElement (net_name : String) :
    (signalElement nums r net_name).iter "signal" = [signalElement nums r net_name] := by
  rw [signalElement, iter, if_pos rfl, iterAll_append, iterAll_leaves, if_neg (by decide)]
  unfold wireElement
  rw [iterAll_leaves, if_neg (by decide)]
  rfl

theorem iterAll_notes (name : String) : iterAll name (eagleUnsupportedNotes r) = [] := by
  unfold eagleUnsupportedNotes
  split
  · rfl
  · rfl

def componentList : List Element := (sortedComponents r).map fun item => componentElement item.1 item.2

def placedList : List Element := (sortedComponents r).map fun item => placedElement item.1 item.2

theorem iterAll_eagleComponents {name : String} (hcomponents : "components" ≠ name) (helements : "elements" ≠ name) :
    iterAll name (eagleComponents r) =
      (if "component" = name then componentList r else []) ++ (if "element" = name then placedList r else []) := by
  rw [eagleComponents, iterAll, iterAll, iterAll, append_nil]
  exact congrArg₂ _ (iter_listing hcomponents _ _ _ _) (iter_listing helements _ _ _ _)

theorem iter_export (name : String)
    (hroot : name ∉ ["eagle", "drawing", "board", "layers", "plain", "components", "elements", "signals"]) :
    (exportEagleXml nums r).iter name =
      (if "layer" = name then (eagleLayers r).children else []) ++
        ((if "wire" = name then (eagleOutline nums r).children else []) ++
          ((if "component" = name then componentList r else []) ++ (if "element" = name then placedList r else []) ++
            ((sortedTexts r.nets.keys).flatMap (fun net_name => (signalElement nums r net_name).iter name) ++
              if "via" = name then eagleVias nums r else []))) := by
  simp only [mem_cons, not_mem_nil, or_false, not_or] at hroot
  obtain ⟨heagle, hdrawing, hboard, hlayers, hplain, hcomponents, helements, hsignals⟩ := hroot
  have hlayer : (eagleLayers r).iter name = if "layer" = name then (eagleLayers r).children else [] :=
    iter_listing (Ne.symm hlayers) _ _ _ _
  have houtline : (eagleOutline nums r).iter name = if "wire" = name then (eagleOutline nums r).children else [] :=
    iter_listing (Ne.symm hplain) _ _ _ _
  have hvias : iterAll name (eagleVias nums r) = if "via" = name then eagleVias nums r else [] :=
    iterAll_leaves _ _ _ _
  have hsignal : (eagleSignals nums r).iter name =
      (sortedTexts r.nets.keys).flatMap fun net_name => (signalElement nums r net_name).iter name := by
    rw [eagleSignals, iter, if_neg (Ne.symm hsignals), iterAll_map]
  rw [← hlayer, ← houtline, ← hvias, ← hsignal,
    ← iterAll_eagleComponents r (Ne.symm hcomponents) (Ne.symm helements)]
  simp [exportEagleXml, iter, iterAll, iterAll_append, iterAll_notes, Ne.symm heagle,
    Ne.symm hdrawing, Ne.symm hboard]

theorem flatMap_signalElement (name : String) (hsignal : name ≠ "signal") (hwire : name ≠ "wire")
    (hcontact : name ≠ "contactref") :
    (sortedTexts r.nets.keys).flatMap (fun net_name => (signalElement nums r net_name).iter name) = [] := by
  simp [iter_signalElement nums r name _ hsignal hwire hcontact]

theorem iter_layer : (exportEagleXml nums r).iter "layer" = (eagleLayers r).children := by
  rw [iter_export nums r _ (by decide), flatMap_signalElement nums r _ (by decide) (by decide) (by decide)]
  simp

theorem iter_component : (exportEagleXml nums r).iter "component" = componentList r := by
  rw [iter_export nums r _ (by decide), flatMap_signalElement nums r _ (by decide) (by decide) (by decide)]
  simp

theorem iter_element : (exportEagleXml nums r).iter "element" = placedList r := by
  rw [iter_export nums r _ (by decide), flatMap_signalElement nums r _ (by decide) (by decide) (by decide)]
  simp

theorem iter_net : (exportEagleXml nums r).iter "net" = [] := by
  rw [iter_export nums r _ (by decide), flatMap_signalElement nums r _ (by decide) (by decide) (by decide)]
  simp

theorem iter_via : (exportEagleXml nums r).iter "via" = eagleVias nums r := by
  rw [iter_export nums r _ (by decide), flatMap_signalElement nums r _ (by decide) (by decide) (by decide)]
  simp

theorem iter_signal :
    (exportEagleXml nums r).iter "signal" = (sortedTexts r.nets.keys).map (signalElement nums r) := by
  rw [iter_export nums r _ (by decide), map_eq_flatMap]
  simp [iter_signal_signalElement]

theorem iter_wire : (exportEagleXml nums r).iter "wire" =
    (eagleOutline nums r).children ++ (sortedTexts r.nets.keys).flatMap (signalWires nums r) := by
  rw [iter_export nums r _ (by decide)]
  simp [iter_wire_signalElement]

end Searches

/-! ## What holds of the collections of every import -/

theorem get?_fillIn (existing : Dict String String) (name value k : String) :
    (fillIn existing name value).get? k =
      if k = name ∧ (existing.get? name).getD "" = "" then some value else existing.get? k := by
  unfold fillIn
  by_cases hempty : (existing.get? name).getD "" = ""
  · simp [hempty, Dict.get?_set]
  · simp [hempty]

@[simp] theorem get?_placeElement_package (existing : Dict String String) (elem : Element) :
    (placeElement existing elem).get? "package" = some (elem.get "package" "") := by
  simp [placeElement, get?_fillIn, Dict.get?_set]

@[simp] theorem get?_placeElement_x_mm (existing : Dict String String) (elem : Element) :
    (placeElement existing elem).get? "x_mm" = some (elem.get "x" "0") := by
  simp [placeElement, get?_fillIn, Dict.get?_set]

@[simp] theorem get?_placeElement_y_mm (existing : Dict String String) (elem : Element) :
    (placeElement existing elem).get? "y_mm" = some (elem.get "y" "0") := by
  simp [placeElement, get?_fillIn, Dict.get?_set]

theorem get?_placeElement_type (existing : Dict String String) (elem : Element) :
    (placeElement existing elem).get? "type" =
      if (existing.get? "type").getD "" = "" then some (elem.get "package" "") else existing.get? "type" := by
  simp [placeElement, get?_fillIn, Dict.get?_set]

theorem get?_placeElement_value (existing : Dict String String) (elem : Element) :
    (placeElement existing elem).get? "value" =
      if (existing.get? "value").getD "" = "" then some (elem.get "value" "") else existing.get? "value" := by
  simp [placeElement, get?_fillIn, Dict.get?_set]

/-- The attributes of an imported component: one without a package was never placed. -/
structure Described (attrs : Dict String String) : Prop where
  type : ∃ t, attrs.get? "type" = some t
  value : ∃ v, attrs.get? "value" = some v
  x_mm : ∀ p, attrs.get? "package" = some p → ∃ x, attrs.get? "x_mm" = some x
  y_mm : ∀ p, attrs.get? "package" = some p → ∃ y, attrs.get? "y_mm" = some y
  package : ∀ p, attrs.get? "package" = some p → attrs.get? "type" = some "" → p = ""

theorem described_placeElement (existing : Dict String String) (elem : Element) :
    Described (placeElement existing elem) := by
  refine ⟨?_, ?_, fun _ _ => ⟨_, get?_placeElement_x_mm _ _⟩, fun _ _ => ⟨_, get?_placeElement_y_mm _ _⟩, ?_⟩
  · rw [get?_placeElement_type]
    cases htype : existing.get? "type" with
    | none => exact ⟨_, rfl⟩
    | some t =>
      rw [getD_some]
      split
      · exact ⟨_, rfl⟩
      · exact ⟨_, rfl⟩
  · rw [get?_placeElement_value]
    cases hvalue : existing.get? "value" with
    | none => exact ⟨_, rfl⟩
    | some v =>
      rw [getD_some]
      split
      · exact ⟨_, rfl⟩
      · exact ⟨_, rfl⟩
  · intro p hp htype
    rw [get?_placeElement_package, some.injEq] at hp
    rw [get?_placeElement_type] at htype
    split at htype
    · exact hp.symm.trans (some.inj htype)
    · rename_i hne
      rw [htype] at hne
      exact absurd rfl hne

/-- What holds of the collections of every import. -/
structure Imported (nums : Numbers F) (r : EagleImportResult F) : Prop where
  refs : ∀ ref attrs, r.components.get? ref = some attrs → ref ≠ "" ∧ Described attrs
  nets : ∀ name refs, r.nets.get? name = some refs → name ≠ "" ∧ "" ∉ refs
  tracks : ∀ track ∈ r.tracks, track.net_name ∈ r.nets.keys ∧ nums.Readable track.layer
  layers : ∀ layer ∈ r.layers, nums.Readable layer.number ∧ nums.Readable layer.color
  board_outline : ∀ wire ∈ r.board_outline, wire.layer = 20 ∧ wire.net_name = ""

theorem parseComponent_keeps {components : Dict String (Dict String String)}
    (h : ∀ ref attrs, components.get? ref = some attrs → ref ≠ "" ∧ Described attrs) (comp : Element) :
    ∀ ref attrs, (parseComponent components comp).get? ref = some attrs → ref ≠ "" ∧ Described attrs := by
  unfold parseComponent
  split
  · exact h
  · rename_i hname
    refine Dict.forall_get?_set h ⟨hname, ?_⟩
    constructor <;> simp [Dict.get?_set]

theorem placeRound_keeps {components : Dict String (Dict String String)}
    (h : ∀ ref attrs, components.get? ref = some attrs → ref ≠ "" ∧ Described attrs) (elem : Element) :
    ∀ ref attrs, (placeRound components elem).get? ref = some attrs → ref ≠ "" ∧ Described attrs := by
  unfold placeRound
  split
  · exact h
  · rename_i hname
    exact Dict.forall_get?_set h ⟨hname, described_placeElement _ _⟩

theorem not_mem_refsOf (tag name : String) (net : Element) : "" ∉ refsOf tag name net := by
  simp [refsOf]
variable {nets : Dict String (List String)}

theorem signalNets_keeps (h : ∀ name refs, nets.get? name = some refs → name ≠ "" ∧ "" ∉ refs) (signal : Element) :
    ∀ name refs, (signalNets nets signal).get? name = some refs → name ≠ "" ∧ "" ∉ refs := by
  unfold signalNets
  split
  · exact h
  · rename_i hname
    exact Dict.forall_get?_set h ⟨hname, not_mem_refsOf _ _ _⟩

theorem parseSchematicNet_keeps (h : ∀ name refs, nets.get? name = some refs → name ≠ "" ∧ "" ∉ refs) (net : Element) :
    ∀ name refs, (parseSchematicNet nets net).get? name = some refs → name ≠ "" ∧ "" ∉ refs := by
  by_cases hnew : net.get "name" "" ≠ "" ∧ net.get "name" "" ∉ nets.keys
  · rw [parseSchematicNet, if_pos hnew]
    exact Dict.forall_get?_set h ⟨hnew.1, not_mem_refsOf _ _ _⟩
  · rwa [parseSchematicNet, if_neg hnew]
variable {name : String}

theorem mem_keys_set {α : Type} {d : Dict String α} (h : name ∈ d.keys) (k : String) (a : α) :
    name ∈ (d.set k a).keys := by
  rw [Dict.mem_keys_iff, Dict.get?_set]
  split
  · exact ⟨_, rfl⟩
  · exact Dict.mem_keys_iff.mp h

theorem mem_keys_parseSchematicNet (h : name ∈ nets.keys) (net : Element) :
    name ∈ (parseSchematicNet nets net).keys := by
  by_cases hnew : net.get "name" "" ≠ "" ∧ net.get "name" "" ∉ nets.keys
  · rw [parseSchematicNet, if_pos hnew]
    exact mem_keys_set h _ _
  · rwa [parseSchematicNet, if_neg hnew]

theorem mem_keys_signalNets_self {signal : Element} (h : signal.get "name" "" ≠ "") :
    signal.get "name" "" ∈ (signalNets nets signal).keys := by
  rw [signalNets, if_neg h, Dict.mem_keys_iff, Dict.get?_set, if_pos rfl]
  exact ⟨_, rfl⟩

theorem mem_keys_signalNets_of_mem (h : name ∈ nets.keys) (signal : Element) :
    name ∈ (signalNets nets signal).keys := by
  unfold signalNets
  split
  · exact h
  · exact mem_keys_set h _ _

theorem mem_keys_foldl_signalNets {signals : List Element} {signal : Element} (hmem : signal ∈ signals)
    (hname : signal.get "name" "" ≠ "") (nets : Dict String (List String)) :
    signal.get "name" "" ∈ (signals.foldl signalNets nets).keys := by
  obtain ⟨before, after, rfl⟩ := append_of_mem hmem
  rw [foldl_append, foldl_cons]
  exact foldlRecOn (motive := fun nets => signal.get "name" "" ∈ Dict.keys nets) after signalNets
    (mem_keys_signalNets_self hname) fun _ hb later _ => mem_keys_signalNets_of_mem hb later

theorem imported_of_collects {root : Element} {r : EagleImportResult F} (h : Collects nums root r) :
    Imported nums r := by
  refine ⟨?_, ?_, ?_, ?_, ?_⟩
  · rw [h.components]
    refine foldlRecOn (motive := fun components : Dict String (Dict String String) =>
      ∀ ref attrs, components.get? ref = some attrs → ref ≠ "" ∧ Described attrs) _ placeRound ?_
      fun _ hb elem _ => placeRound_keeps hb elem
    refine foldlRecOn (motive := fun components : Dict String (Dict String String) =>
      ∀ ref attrs, components.get? ref = some attrs → ref ≠ "" ∧ Described attrs) _ parseComponent ?_
      fun _ hb comp _ => parseComponent_keeps hb comp
    intro ref attrs hattrs
    cases hattrs
  · rw [h.nets]
    refine foldlRecOn (motive := fun nets : Dict String (List String) =>
      ∀ name refs, nets.get? name = some refs → name ≠ "" ∧ "" ∉ refs) _ parseSchematicNet ?_
      fun _ hb net _ => parseSchematicNet_keeps hb net
    refine foldlRecOn (motive := fun nets : Dict String (List String) =>
      ∀ name refs, nets.get? name = some refs → name ≠ "" ∧ "" ∉ refs) _ signalNets ?_
      fun _ hb signal _ => signalNets_keeps hb signal
    intro name refs hrefs
    cases hrefs
  · rw [h.tracks, h.nets]
    intro track htrack
    obtain ⟨signal, hsignal, hmem⟩ := mem_flatMap.mp htrack
    unfold signalTracks at hmem
    split at hmem
    · cases hmem
    · rename_i hname
      obtain ⟨wire, -, rfl⟩ := List.mem_map.mp hmem
      refine ⟨?_, Numbers.readable_int (.of_nat (by decide : (toString 1).length ≤ 640))⟩
      exact foldlRecOn (motive := fun nets => signal.get "name" "" ∈ Dict.keys nets) _ parseSchematicNet
        (mem_keys_foldl_signalNets hsignal hname _) fun _ hb net _ => mem_keys_parseSchematicNet hb net
  · rw [h.layers]
    intro layer hlayer
    obtain ⟨layer_el, -, rfl⟩ := List.mem_map.mp hlayer
    exact ⟨Numbers.readable_int (.of_nat (by decide : (toString 0).length ≤ 640)), Numbers.readable_int (.of_nat (by decide : (toString 4).length ≤ 640))⟩
  · rw [h.board_outline]
    intro wire hwire
    obtain ⟨wire_el, -, rfl⟩ := List.mem_map.mp hwire
    exact ⟨rfl, rfl⟩

/-! ## What the second import collects -/

theorem sortedTexts_perm (texts : List String) : (sortedTexts texts).Perm texts := mergeSort_perm _ _

theorem mem_sortedTexts {texts : List String} {text : String} : text ∈ sortedTexts texts ↔ text ∈ texts :=
  (sortedTexts_perm texts).mem_iff

theorem nodup_sortedTexts {texts : List String} (h : texts.Nodup) : (sortedTexts texts).Nodup :=
  (sortedTexts_perm texts).nodup_iff.mpr h

/-- The attributes that are written for a component and read again. -/
def rewritten (ref : String) (attrs : Dict String String) : Dict String String :=
  placeElement
    ((Dict.empty.set "type" ((attrs.get? "type").getD "")).set "value" ((attrs.get? "value").getD ""))
    (placedElement ref attrs)
variable {r r' : EagleImportResult F}

theorem get?_reimported_components (hr : Imported nums r) (h : Collects nums (exportEagleXml nums r) r') (ref : String) :
    r'.components.get? ref = (r.components.get? ref).map (rewritten ref) := by
  have hne : ∀ ref ∈ sortedTexts r.components.keys, ref ≠ "" := by
    intro ref href
    obtain ⟨attrs, hattrs⟩ := Dict.mem_keys_iff.mp (mem_sortedTexts.mp href)
    exact (hr.refs ref attrs hattrs).1
  have hnodup := nodup_sortedTexts r.components.keys_nodup
  have hcomponents : (componentList r).foldl parseComponent .empty =
      (sortedTexts r.components.keys).foldl (fun components ref => components.set ref
        ((Dict.empty.set "type" ((((r.components.get? ref).getD .empty).get? "type").getD "")).set "value"
          ((((r.components.get? ref).getD .empty).get? "value").getD ""))) .empty := by
    rw [componentList, sortedComponents, List.map_map, foldl_map]
    apply foldl_ext
    intro components ref href
    simp [parseComponent, componentElement, hne ref href, lookup_cons]
  have hplaced : ∀ components, (placedList r).foldl placeRound components =
      (sortedTexts r.components.keys).foldl (fun components ref => components.set ref
        (placeElement ((components.get? ref).getD .empty)
          (placedElement ref ((r.components.get? ref).getD .empty)))) components := by
    intro components
    rw [placedList, sortedComponents, List.map_map, foldl_map]
    apply foldl_ext
    intro components ref href
    simp [placeRound, placedElement, hne ref href]
  rw [h.components, iter_element, iter_component, hcomponents, hplaced,
    Dict.get?_foldl_update hnodup (fun old ref => placeElement (old.getD .empty)
      (placedElement ref ((r.components.get? ref).getD .empty))),
    Dict.get?_foldl_update hnodup (fun _ ref => (Dict.empty.set "type"
      ((((r.components.get? ref).getD .empty).get? "type").getD "")).set "value"
        ((((r.components.get? ref).getD .empty).get? "value").getD ""))]
  simp only [mem_sortedTexts]
  cases hattrs : r.components.get? ref with
  | none =>
    rw [if_neg (Dict.not_mem_keys_iff.mpr hattrs), if_neg (Dict.not_mem_keys_iff.mpr hattrs)]
    rfl
  | some attrs =>
    rw [if_pos (Dict.mem_keys_iff.mpr ⟨attrs, hattrs⟩), if_pos (Dict.mem_keys_iff.mpr ⟨attrs, hattrs⟩)]
    rfl

theorem getD_tracksByNet (r : EagleImportResult F) (net_name : String) :
    ((tracksByNet r).get? net_name).getD [] = r.tracks.filter fun track => track.net_name = net_name := by
  rw [tracksByNet, Dict.get?_groupBy]
  split
  · rename_i hnil
    rw [hnil]
    rfl
  · rw [List.map_id, getD_some]

theorem findall_signalElement (nums : Numbers F) (name : String) (r : EagleImportResult F) (net_name : String) :
    (signalElement nums r net_name).findall name =
      (if "contactref" = name then (sortedTexts ((r.nets.get? net_name).getD [])).map fun ref =>
          .leaf "contactref" [("element", ref), ("pad", "?")] else []) ++
        (if "wire" = name then signalWires nums r net_name else []) := by
  unfold findall signalElement signalWires wireElement children
  rw [filter_append, filter_leaves, filter_leaves]

theorem refsOf_signalElement {r : EagleImportResult F} (hr : Imported nums r) {net_name : String}
    {refs : List String} (h : r.nets.get? net_name = some refs) :
    refsOf "contactref" "element" (signalElement nums r net_name) = sortedTexts refs := by
  have hne : ∀ ref ∈ sortedTexts refs, ref ≠ "" := by
    intro ref href hempty
    exact (hr.nets net_name refs h).2 (hempty ▸ mem_sortedTexts.mp href)
  rw [refsOf, findall_signalElement, if_pos rfl, if_neg (by decide), append_nil, List.map_map, h,
    getD_some]
  have hmap : (sortedTexts refs).map ((fun child : Element => child.get "element" "") ∘ fun ref =>
      leaf "contactref" [("element", ref), ("pad", "?")]) = sortedTexts refs := by
    rw [map_congr_left (g := id) fun ref _ => by simp]
    exact List.map_id _
  rw [hmap, filter_eq_self]
  simpa using hne

theorem get?_reimported_nets (hr : Imported nums r) (h : Collects nums (exportEagleXml nums r) r') (name : String) :
    r'.nets.get? name = (r.nets.get? name).map sortedTexts := by
  have hnodup := nodup_sortedTexts r.nets.keys_nodup
  have hnets : ((sortedTexts r.nets.keys).map (signalElement nums r)).foldl signalNets .empty =
      (sortedTexts r.nets.keys).foldl (fun nets name =>
        nets.set name (refsOf "contactref" "element" (signalElement nums r name))) .empty := by
    rw [foldl_map]
    apply foldl_ext
    intro nets name hname
    obtain ⟨refs, hrefs⟩ := Dict.mem_keys_iff.mp (mem_sortedTexts.mp hname)
    have hne : (signalElement nums r name).get "name" "" ≠ "" := (hr.nets name refs hrefs).1
    rw [signalNets, if_neg hne]
    rfl
  rw [h.nets, iter_net, iter_signal, foldl_nil, hnets,
    Dict.get?_foldl_update hnodup (fun _ name => refsOf "contactref" "element" (signalElement nums r name))]
  simp only [mem_sortedTexts]
  cases hrefs : r.nets.get? name with
  | none =>
    rw [if_neg (Dict.not_mem_keys_iff.mpr hrefs)]
    rfl
  | some refs =>
    rw [if_pos (Dict.mem_keys_iff.mpr ⟨refs, hrefs⟩), refsOf_signalElement hr hrefs]
    rfl

theorem trackOf_wireElement {track : EagleTrack F} (h : nums.Readable track.layer) :
    trackOf nums track.net_name (wireElement nums track (toString track.layer)) = track := by
  simp [trackOf, wireElement, lookup_cons, nums.float_str, h.int_repr]

theorem reimported_tracks (hr : Imported nums r) (h : Collects nums (exportEagleXml nums r) r') :
    r'.tracks = (sortedTexts r.nets.keys).flatMap fun name => r.tracks.filter fun track => track.net_name = name := by
  rw [h.tracks, iter_signal, flatMap_map]
  apply flatMap_congr
  intro name hname
  obtain ⟨refs, hrefs⟩ := Dict.mem_keys_iff.mp (mem_sortedTexts.mp hname)
  have hne : (signalElement nums r name).get "name" "" ≠ "" := (hr.nets name refs hrefs).1
  rw [signalTracks, if_neg hne, findall_signalElement, if_neg (by decide), if_pos rfl, nil_append, signalWires,
    getD_tracksByNet, List.map_map]
  rw [map_congr_left (g := id), List.map_id]
  intro track htrack
  obtain ⟨hmem, rfl⟩ : track ∈ r.tracks ∧ track.net_name = name := by simpa using htrack
  exact trackOf_wireElement (hr.tracks track hmem).2

theorem reimported_vias (h : Collects nums (exportEagleXml nums r) r') : r'.vias = r.vias := by
  rw [h.vias, iter_via, eagleVias, List.map_map]
  rw [map_congr_left (g := id), List.map_id]
  intro via _
  simp [viaOf, lookup_cons, nums.float_str]

theorem reimported_layers (hr : Imported nums r) (h : Collects nums (exportEagleXml nums r) r') :
    r'.layers = r.layers.mergeSort fun a b => a.number ≤ b.number := by
  rw [h.layers, iter_layer, eagleLayers, children, List.map_map]
  rw [map_congr_left (g := id), List.map_id]
  intro layer hlayer
  obtain ⟨hnumber, hcolor⟩ := hr.layers layer (mem_mergeSort.mp hlayer)
  have hvisible : ((if layer.visible = true then "yes" else "no") != "no") = layer.visible := by
    cases layer.visible <;> decide
  simp [layerOf, lookup_cons, hnumber.int_repr, hcolor.int_repr, hvisible]

theorem outlineWire_wireElement {wire : EagleTrack F} (h : wire.layer = 20 ∧ wire.net_name = "") :
    outlineWire nums (wireElement nums wire "20") = wire := by
  cases wire
  obtain ⟨rfl, rfl⟩ := h
  simp [outlineWire, wireElement, lookup_cons, nums.float_str]

theorem reimported_board_outline (hr : Imported nums r) (h : Collects nums (exportEagleXml nums r) r') :
    r'.board_outline = r.board_outline ++
      (((sortedTexts r.nets.keys).flatMap (signalWires nums r)).filter fun wire =>
        wire.get? "layer" = some "20").map (outlineWire nums) := by
  have houtline : ((eagleOutline nums r).children.filter fun wire => wire.get? "layer" = some "20").map
      (outlineWire nums) = r.board_outline := by
    rw [eagleOutline, children, filter_eq_self.mpr, List.map_map]
    · rw [map_congr_left (g := id), List.map_id]
      exact fun wire hwire => outlineWire_wireElement (hr.board_outline wire hwire)
    · intro wire hwire
      obtain ⟨track, -, rfl⟩ := List.mem_map.mp hwire
      simp [wireElement, lookup_cons]
  rw [h.board_outline, iter_wire, filter_append, map_append, houtline]

theorem mem_signalWires {r : EagleImportResult F} {wire : Element} :
    wire ∈ signalWires nums r name ↔
      ∃ track ∈ r.tracks, track.net_name = name ∧ wireElement nums track (toString track.layer) = wire := by
  rw [signalWires, getD_tracksByNet, List.mem_map]
  simp only [mem_filter, decide_eq_true_eq, and_assoc]

theorem reimported_board_outline_iff (hr : Imported nums r) (h : Collects nums (exportEagleXml nums r) r') :
    r'.board_outline = r.board_outline ↔ ∀ track ∈ r.tracks, track.layer ≠ 20 := by
  rw [reimported_board_outline hr h, append_right_eq_self, map_eq_nil_iff, filter_eq_nil_iff]
  constructor
  · intro hnone track htrack hlayer
    obtain ⟨hnet, -⟩ := hr.tracks track htrack
    refine hnone (wireElement nums track (toString track.layer)) (mem_flatMap.mpr ⟨track.net_name,
      mem_sortedTexts.mpr hnet, mem_signalWires.mpr ⟨track, htrack, rfl, rfl⟩⟩) ?_
    rw [hlayer]
    simp [wireElement, lookup_cons]
    rfl
  · intro hnone wire hwire
    obtain ⟨name, -, hmem⟩ := mem_flatMap.mp hwire
    obtain ⟨track, htrack, -, rfl⟩ := mem_signalWires.mp hmem
    have hne : toString track.layer ≠ "20" := fun heq => hnone track htrack (Int.repr_injective heq)
    simpa [wireElement, lookup_cons] using hne

/-! ## The round trip -/

/-- The attributes of a component that a round trip has to keep. -/
def part (attrs : Dict String String) : List (Option String) :=
  ["type", "value", "x_mm", "y_mm", "package"].map attrs.get?

/-- What the second import has to share with the first: the components, the references of each net up to
order, the tracks with their nets, the vias, the layers and the outline. -/
structure SameBoard (r r' : EagleImportResult F) : Prop where
  components : ∀ ref, (r'.components.get? ref).map part = (r.components.get? ref).map part
  nets : ∀ name, Option.Rel List.Perm (r'.nets.get? name) (r.nets.get? name)
  tracks : r'.tracks.Perm r.tracks
  vias : r'.vias = r.vias
  layers : r'.layers.Perm r.layers
  board_outline : r'.board_outline = r.board_outline

theorem part_rewritten_iff {attrs : Dict String String} (h : Described attrs) (ref : String) :
    part (rewritten ref attrs) = part attrs ↔ "package" ∈ attrs.keys := by
  rw [Dict.mem_keys_iff]
  constructor
  · intro hsame
    have hpackage : (rewritten ref attrs).get? "package" = attrs.get? "package" := by
      simp only [part, map_cons, cons.injEq] at hsame
      exact hsame.2.2.2.2.1
    exact ⟨_, hpackage.symm.trans (get?_placeElement_package _ _)⟩
  · rintro ⟨p, hp⟩
    obtain ⟨t, ht⟩ := h.type
    obtain ⟨v, hv⟩ := h.value
    obtain ⟨x, hx⟩ := h.x_mm p hp
    obtain ⟨y, hy⟩ := h.y_mm p hp
    have hpackage : t = "" → p = "" := fun hempty => h.package p hp (hempty ▸ ht)
    simp only [part, rewritten, map_cons, map_nil, get?_placeElement_type, get?_placeElement_value,
      get?_placeElement_x_mm, get?_placeElement_y_mm, get?_placeElement_package, ht, hv, hx, hy, hp]
    simp [Dict.get?_set, placedElement, lookup_cons, hp, hv, hx, hy]
    exact fun hempty => (hpackage hempty).trans hempty.symm

theorem flatMap_filter_perm {α : Type} {key : α → String} {ks : List String} (hnodup : ks.Nodup) {xs : List α}
    (hcover : ∀ x ∈ xs, key x ∈ ks) : (ks.flatMap fun k => xs.filter fun x => key x = k).Perm xs := by
  induction ks generalizing xs with
  | nil =>
    have hnil : xs = [] := eq_nil_iff_forall_not_mem.mpr fun x hx => not_mem_nil (hcover x hx)
    rw [hnil]
    rfl
  | cons k ks ih =>
    obtain ⟨hk, hks⟩ := nodup_cons.mp hnodup
    rw [flatMap_cons]
    have hrest : (ks.flatMap fun l => xs.filter fun x => key x = l) =
        ks.flatMap fun l => (xs.filter fun x => !decide (key x = k)).filter fun x => key x = l := by
      apply flatMap_congr
      intro l hl
      rw [List.filter_filter]
      apply filter_congr
      intro x _
      by_cases hx : key x = l
      · have hne : l ≠ k := fun heq => hk (heq ▸ hl)
        simp [hx, hne]
      · simp [hx]
    rw [hrest]
    refine ((ih hks ?_).append_left _).trans (filter_append_perm _ xs)
    intro x hx
    obtain ⟨hmem, hne⟩ : x ∈ xs ∧ key x ≠ k := by simpa using hx
    exact (mem_cons.mp (hcover x hmem)).resolve_left hne

/-- What the second import collects agrees with the first exactly when no track is on layer 20 and every
component is placed. -/
theorem sameBoard_reimported_iff (hr : Imported nums r) (h : Collects nums (exportEagleXml nums r) r') :
    SameBoard r r' ↔
      (∀ track ∈ r.tracks, track.layer ≠ 20) ∧ ∀ ref attrs, r.components.get? ref = some attrs → "package" ∈ attrs.keys := by
  constructor
  · intro hsame
    refine ⟨(reimported_board_outline_iff hr h).mp hsame.board_outline, ?_⟩
    intro ref attrs hattrs
    have hpart := hsame.components ref
    rw [get?_reimported_components hr h, hattrs] at hpart
    exact (part_rewritten_iff (hr.refs ref attrs hattrs).2 ref).mp (some.inj hpart)
  · rintro ⟨hlayer, hplaced⟩
    constructor
    · intro ref
      rw [get?_reimported_components hr h]
      cases hattrs : r.components.get? ref with
      | none => rfl
      | some attrs =>
        exact congrArg some ((part_rewritten_iff (hr.refs ref attrs hattrs).2 ref).mpr (hplaced ref attrs hattrs))
    · intro name
      rw [get?_reimported_nets hr h]
      cases r.nets.get? name with
      | none => exact Option.Rel.none
      | some refs => exact Option.Rel.some (sortedTexts_perm refs)
    · rw [reimported_tracks hr h]
      exact flatMap_filter_perm (nodup_sortedTexts r.nets.keys_nodup) fun track htrack =>
        mem_sortedTexts.mpr (hr.tracks track htrack).1
    · exact reimported_vias h
    · rw [reimported_layers hr h]
      exact mergeSort_perm _ _
    · exact (reimported_board_outline_iff hr h).mpr hlayer

/-- A board that was imported is exported and imported again. The second import agrees with the first exactly
when no track is on layer 20, the layer of the outline, and every component is placed. -/
theorem sameBoard_iff {root : Element} {r : EagleImportResult F} (h : parseRoot nums root = .ok r) :
    (∃ r', parseRoot nums (exportEagleXml nums r) = .ok r' ∧ SameBoard r r') ↔
      (∀ track ∈ r.tracks, track.layer ≠ 20) ∧ ∀ ref attrs, r.components.get? ref = some attrs → "package" ∈ attrs.keys := by
  have hr := imported_of_collects (collects_of_parseRoot h)
  obtain ⟨r', hr', hcollects⟩ := exists_parseRoot (show (exportEagleXml nums r).tag? = some "eagle" from rfl)
  rw [← sameBoard_reimported_iff hr hcollects]
  constructor
  · rintro ⟨r'', hr'', hsame⟩
    rw [hr'] at hr''
    exact Except.ok.inj hr'' ▸ hsame
  · exact fun hsame => ⟨r', hr', hsame⟩

/-- Floats that are given by their texts, for documents whose numbers are written as `str` writes them. -/
def reprNumbers : Numbers { text : String // text ≠ "" } where
  toFloat val := if h : val ≠ "" then some ⟨val, h⟩ else none
  str x := x.1
  add x _ := x
  literal _ := ⟨"0.0", by decide⟩
  toInt val := val.toInt?
  toFloat_str x := dif_pos x.2
  str_ne_empty x := x.2
  toInt_toString _ := Int.toInt?_repr _
  toInt_digits n _ := Nat.toInt?_repr n

theorem readable_reprNumbers (n : ℤ) : reprNumbers.Readable n := Int.toInt?_repr n

/-- A board with one placed component and one track on a given layer. -/
def oneTrack (layer : String) : Element :=
  .element "eagle" [("version", "9.6.2")] [.element "drawing" [] [.element "board" []
    [.element "elements" [] [.leaf "element" [("name", "R1"), ("package", "R0603"), ("value", "1k"), ("x", "2.5"),
        ("y", "4.0")]],
      .element "signals" [] [.element "signal" [("name", "GND")]
        [.leaf "contactref" [("element", "R1"), ("pad", "1")],
          .leaf "wire" [("x1", "0.0"), ("y1", "0.0"), ("x2", "2.5"), ("y2", "4.0"), ("width", "0.25"),
            ("layer", layer)]]]]]]

theorem tracks_oneTrack {layer : String} {r : EagleImportResult { text : String // text ≠ "" }}
    (h : Collects reprNumbers (oneTrack layer) r) : r.tracks.map EagleTrack.layer = [reprNumbers.int (some layer) 1] := by
  rw [h.tracks]
  simp [oneTrack, iter, iterAll, leaf, signalTracks, findall, children,
    tag?, trackOf, get?, lookup_cons]

theorem sameBoard_iff_oneTrack : ∃ r, parseRoot reprNumbers (oneTrack "1") = .ok r ∧
    ∃ r', parseRoot reprNumbers (exportEagleXml reprNumbers r) = .ok r' ∧ SameBoard r r' := by
  obtain ⟨r, hr, hcollects⟩ := exists_parseRoot (show (oneTrack "1").tag? = some "eagle" from rfl)
  have hone : reprNumbers.int (some "1") 1 = 1 := (readable_reprNumbers 1).int_repr 1
  refine ⟨r, hr, (sameBoard_iff hr).mpr ⟨?_, ?_⟩⟩
  · intro track htrack hlayer
    have hmem : track.layer ∈ r.tracks.map EagleTrack.layer := mem_map_of_mem htrack
    rw [tracks_oneTrack hcollects, hone, hlayer] at hmem
    exact absurd hmem (by decide)
  · have hcomponents : r.components = placeRound .empty (.leaf "element" [("name", "R1"), ("package", "R0603"),
        ("value", "1k"), ("x", "2.5"), ("y", "4.0")]) := hcollects.components
    rw [hcomponents, placeRound, if_neg (by decide)]
    apply Dict.forall_get?_set
    · intro ref attrs hattrs
      cases hattrs
    · exact Dict.mem_keys_iff.mpr ⟨_, get?_placeElement_package _ _⟩

/-- The track on layer 20 comes back twice, as a track and as a wire of the outline. -/
theorem not_sameBoard_oneTrack : ∃ r, parseRoot reprNumbers (oneTrack "20") = .ok r ∧
    ¬ ∃ r', parseRoot reprNumbers (exportEagleXml reprNumbers r) = .ok r' ∧ SameBoard r r' := by
  obtain ⟨r, hr, hcollects⟩ := exists_parseRoot (show (oneTrack "20").tag? = some "eagle" from rfl)
  have htwenty : reprNumbers.int (some "20") 1 = 20 := (readable_reprNumbers 20).int_repr 1
  refine ⟨r, hr, ?_⟩
  rintro ⟨r', hr', hsame⟩
  have hlayer := (reimported_board_outline_iff (imported_of_collects hcollects) (collects_of_parseRoot hr')).mp
    hsame.board_outline
  have htracks := tracks_oneTrack hcollects
  rw [htwenty] at htracks
  obtain ⟨track, htrack, heq⟩ : ∃ track ∈ r.tracks, track.layer = 20 := by
    have hmem : (20 : ℤ) ∈ r.tracks.map EagleTrack.layer := by rw [htracks]; exact mem_singleton_self _
    exact List.mem_map.mp hmem
  exact hlayer track htrack heq

end ZapTrace.Eagle
