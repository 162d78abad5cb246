import Mathlib.Data.List.Nodup
import Mathlib.Data.List.TakeWhile
import Mathlib.Data.Rat.Defs
import ZapTrace.Core.ParserAdmission

/-!
# What the parser skips

A design that is built retains an entry of the mapping when it has an element that says what the entry says: a
node with the two parts of the text, a via with the numbers, a point with the coordinates. The section parsers
skip the entries that they have no branch for, and go on. So a design retains the nodes, the places, the vias, the
net classes and the points of a mapping exactly when all of them have one of the shapes that are read, and no
two keys of a section are one text.

## Main results

* `retains_iff_wellShaped`: a design that is built retains the entries of a well shaped mapping, and of no other
* `lossFreeOrLoud_iff`: the mappings for which nothing is lost in silence
-/

namespace ZapTrace.Schema

open Lists List Dict

open PyValue (lookup)
open Lists (gather)
open Raising (error_or_ok bind_eq_ok_iff exists_bind_iff exists_map_iff pure_eq_ok_iff)

variable (rt : Runtime)

/-- The items of a section that is a mapping. -/
def itemsAt (key : String) (raw : Raw) : Raw := ((lookup key raw).bind PyValue.items?).getD []

def elementsAt (key : String) (raw : Raw) : List PyValue := ((lookup key raw).bind PyValue.elements).getD []

/-! ## Entries and their elements -/

/-- A node of a net says the same: the two parts around the first dot, or the two fields. -/
def KeepsNode (entry : PyValue) (node : NetNode) : Prop :=
  match entry with
  | .str s => s.toList = node.component_ref.toList ++ '.' :: node.pin_name.toList
  | .dict items => (lookup "component_ref" items).bind rt.pydantic.toStr = some node.component_ref ∧
      (lookup "pin_name" items).bind rt.pydantic.toStr = some node.pin_name
  | _ => False

/-- A net has the key and all nodes. -/
def KeepsNet (item : PyValue × PyValue) (net : String × Net) : Prop :=
  rt.pydantic.toStr item.1 = some net.1 ∧
    List.Forall₂ (KeepsNode rt) (elementsAt "nodes" (item.2.items?.getD [])) net.2.nodes

/-- A place has the key and the coordinates. -/
def KeepsPosition (item : PyValue × PyValue) (place : String × ℚ × ℚ) : Prop :=
  rt.pydantic.toStr item.1 = some place.1 ∧ ∃ x y, coordinates item.2 = some (x, y) ∧
    rt.float x = .ok place.2.1 ∧ rt.float y = .ok place.2.2

def KeepsNetClass (item : PyValue × PyValue) (cls : String × NetClass) : Prop :=
  rt.pydantic.toStr item.1 = some cls.1 ∧ item.2 = .str cls.2.value

/-- A point has the first two coordinates. -/
def KeepsPoint (entry : PyValue) (point : ℚ × ℚ) : Prop :=
  ∃ x y rest, entry.sequence? = some (x :: y :: rest) ∧ rt.float x = .ok point.1 ∧ rt.float y = .ok point.2

/-- A via has the first four numbers and the net. -/
def KeepsVia (entry : PyValue) (via : Via) : Prop :=
  ∃ x y diameter hole rest, entry.sequence? = some (x :: y :: diameter :: hole :: rest) ∧
    ∃ q₁ q₂ q₃ q₄, rt.float x = .ok q₁ ∧ rt.float y = .ok q₂ ∧ rt.float diameter = .ok q₃ ∧
      rt.float hole = .ok q₄ ∧ via = viaOf q₁ q₂ q₃ q₄ (viaNet rt rest)

def KeepsPolygon (entry : PyValue) (polygon : List (ℚ × ℚ)) : Prop :=
  List.Forall₂ (KeepsPoint rt) (entry.elements.getD []) polygon

/-- A design has all nodes, places, vias, net classes and points of a mapping, in order. -/
structure Retains (raw : Raw) (design : Design) : Prop where
  nets : List.Forall₂ (KeepsNet rt) (itemsAt "nets" raw) design.nets.items
  placement : List.Forall₂ (KeepsPosition rt) (itemsAt "placement" raw) (design.placement.getD empty).items
  vias : List.Forall₂ (KeepsVia rt) (elementsAt "vias" (itemsAt "routing" raw)) (design.routing.getD {}).vias
  net_classes : List.Forall₂ (KeepsNetClass rt) (itemsAt "net_classes" raw)
    (design.net_classes.getD empty).items
  outline : List.Forall₂ (KeepsPoint rt) (elementsAt "outline" (itemsAt "board_def" raw))
    (design.board_def.getD {}).outline
  cutouts : List.Forall₂ (KeepsPolygon rt) (elementsAt "cutouts" (itemsAt "board_def" raw))
    (design.board_def.getD {}).cutouts

/-! ## Shapes -/

/-- A text with a dot, or a mapping. -/
def NodeShaped : PyValue → Prop
  | .str s => '.' ∈ s.toList
  | .dict _ => True
  | _ => False

/-- A list or a tuple of at least so many elements. -/
def SequenceOf (n : ℕ) (entry : PyValue) : Prop := ∃ xs, entry.sequence? = some xs ∧ n ≤ xs.length

/-- No two keys are read as one text. -/
def DistinctKeys (items : Raw) : Prop := (items.map fun item => rt.pydantic.toStr item.1).Nodup

/-- All nodes, places, vias, net classes and points have a shape that is read. -/
structure WellShaped (raw : Raw) : Prop where
  nodes : ∀ item ∈ itemsAt "nets" raw, ∀ node ∈ elementsAt "nodes" (item.2.items?.getD []), NodeShaped node
  nets : DistinctKeys rt (itemsAt "nets" raw)
  positions : ∀ item ∈ itemsAt "placement" raw, (coordinates item.2).isSome
  placement : DistinctKeys rt (itemsAt "placement" raw)
  vias : ∀ entry ∈ elementsAt "vias" (itemsAt "routing" raw), SequenceOf 4 entry
  classes : ∀ item ∈ itemsAt "net_classes" raw, isText item.2
  net_classes : DistinctKeys rt (itemsAt "net_classes" raw)
  outline : ∀ entry ∈ elementsAt "outline" (itemsAt "board_def" raw), SequenceOf 2 entry
  cutouts : ∀ polygon ∈ elementsAt "cutouts" (itemsAt "board_def" raw),
    ∀ entry ∈ polygon.elements.getD [], SequenceOf 2 entry

/-! ## One entry -/

theorem splitNode_parts {s : String} (h : '.' ∈ s.toList) :
    s.toList = (splitNode s).component_ref.toList ++ '.' :: (splitNode s).pin_name.toList := by
  have hdrop : (s.toList.dropWhile fun c => c ≠ '.') ≠ [] := by
    rw [ne_eq, dropWhile_eq_nil_iff]
    intro hall
    simpa using hall '.' h
  have hhead : (s.toList.dropWhile fun c => c ≠ '.').head hdrop = '.' := by
    simpa using head_dropWhile_not (fun c => decide (c ≠ '.')) hdrop
  have hcons := cons_head_tail hdrop
  rw [hhead] at hcons
  simp only [splitNode, String.toList_ofList]
  rw [hcons, takeWhile_append_dropWhile]

theorem validate_netNode {items : Raw} {node : NetNode}
    (h : (NetNode.codec rt.pydantic).validate (.dict items) = some node) :
    (lookup "component_ref" items).bind rt.pydantic.toStr = some node.component_ref ∧
      (lookup "pin_name" items).bind rt.pydantic.toStr = some node.pin_name := by
  have hread : (NetNode.fields rt.pydantic).read (fun n => lookup n items) = some node := h
  simp only [NetNode.fields, Fields.field, Fields.start, Codec.required, Pydantic.str] at hread
  cases href : (lookup "component_ref" items).bind rt.pydantic.toStr with
  | none => simp [href] at hread
  | some ref =>
    cases hpin : (lookup "pin_name" items).bind rt.pydantic.toStr with
    | none => simp [href, hpin] at hread
    | some pin =>
      simp only [href, hpin] at hread
      cases hread
      exact ⟨rfl, rfl⟩
variable {entry : PyValue}

theorem parseNode_some {node : NetNode} (h : parseNode rt entry = .ok (some node)) :
    NodeShaped entry ∧ KeepsNode rt entry node := by
  unfold parseNode at h
  cases entry with
  | str s =>
    by_cases hdot : '.' ∈ s.toList
    · simp only [hdot, if_true] at h
      cases h
      exact ⟨hdot, splitNode_parts hdot⟩
    · simp only [hdot, if_false] at h
      cases h
  | dict items =>
    obtain ⟨n, hn, h⟩ := bind_eq_ok_iff.mp h
    cases h
    obtain ⟨_, -, hn⟩ := bind_eq_ok_iff.mp hn
    obtain ⟨_, -, hn⟩ := bind_eq_ok_iff.mp hn
    exact ⟨trivial, validate_netNode rt (orRaise_eq_ok_iff.mp hn)⟩
  | _ => cases h

theorem parseNode_none (h : parseNode rt entry = .ok none) : ¬ NodeShaped entry := by
  unfold parseNode at h
  cases entry with
  | str s =>
    intro hdot
    have hdot : '.' ∈ s.toList := hdot
    simp only [hdot, if_true] at h
    cases h
  | dict items =>
    obtain ⟨n, -, h⟩ := bind_eq_ok_iff.mp h
    cases h
  | _ => exact id

theorem parsePoint_some {point : ℚ × ℚ} (h : parsePoint rt entry = .ok (some point)) :
    SequenceOf 2 entry ∧ KeepsPoint rt entry point := by
  unfold parsePoint at h
  split at h
  next x y rest hentry =>
    obtain ⟨qx, hx, h⟩ := bind_eq_ok_iff.mp h
    obtain ⟨qy, hy, h⟩ := bind_eq_ok_iff.mp h
    cases h
    exact ⟨⟨_, hentry, by simp⟩, x, y, rest, hentry, hx, hy⟩
  next => cases h

theorem parsePoint_none (h : parsePoint rt entry = .ok none) : ¬ SequenceOf 2 entry := by
  unfold parsePoint at h
  split at h
  next x y rest hentry =>
    obtain ⟨qx, -, h⟩ := bind_eq_ok_iff.mp h
    obtain ⟨qy, -, h⟩ := bind_eq_ok_iff.mp h
    cases h
  next hno =>
    rintro ⟨xs, hxs, hlength⟩
    match xs, hlength with
    | x :: y :: rest, _ => exact hno x y rest hxs

theorem parseVia_some {via : Via} (h : parseVia rt entry = .ok (some via)) :
    SequenceOf 4 entry ∧ KeepsVia rt entry via := by
  unfold parseVia at h
  split at h
  next x y diameter hole rest hentry =>
    obtain ⟨q₁, h₁, h⟩ := bind_eq_ok_iff.mp h
    obtain ⟨q₂, h₂, h⟩ := bind_eq_ok_iff.mp h
    obtain ⟨q₃, h₃, h⟩ := bind_eq_ok_iff.mp h
    obtain ⟨q₄, h₄, h⟩ := bind_eq_ok_iff.mp h
    cases h
    exact ⟨⟨_, hentry, by simp⟩, x, y, diameter, hole, rest, hentry, q₁, q₂, q₃, q₄, h₁, h₂, h₃, h₄, rfl⟩
  next => cases h

theorem parseVia_none (h : parseVia rt entry = .ok none) : ¬ SequenceOf 4 entry := by
  unfold parseVia at h
  split at h
  next x y diameter hole rest hentry =>
    obtain ⟨_, -, h⟩ := bind_eq_ok_iff.mp h
    obtain ⟨_, -, h⟩ := bind_eq_ok_iff.mp h
    obtain ⟨_, -, h⟩ := bind_eq_ok_iff.mp h
    obtain ⟨_, -, h⟩ := bind_eq_ok_iff.mp h
    cases h
  next hno =>
    rintro ⟨xs, hxs, hlength⟩
    match xs, hlength with
    | x :: y :: diameter :: hole :: rest, _ => exact hno x y diameter hole rest hxs

/-! ## Sections with keys -/

theorem textKeys_eq_ok {α : Type} {as : List (PyValue × α)} {d : Dict String α} (h : textKeys rt as = .ok d) :
    ∃ ys : List (String × α), List.Forall₂ (fun a y => rt.pydantic.toStr a.1 = some y.1 ∧ a.2 = y.2) as ys ∧
      d = .ofItems ys := by
  obtain ⟨ys, hys, h⟩ := bind_eq_ok_iff.mp h
  cases h
  refine ⟨ys, (mapM_eq_ok_iff.mp hys).imp fun a y hay => ?_, rfl⟩
  obtain ⟨s, hs, hay⟩ := bind_eq_ok_iff.mp hay
  cases hay
  exact ⟨orRaise_eq_ok_iff.mp hs, rfl⟩

theorem forall₂_ofItems_iff {α : Type} {R S : PyValue × PyValue → String × α → Prop} {P : PyValue × PyValue → Prop}
    (hkey : ∀ item y, S item y → rt.pydantic.toStr item.1 = some y.1)
    (hR : ∀ item y, S item y → (R item y ↔ P item)) {items : Raw} {ys : List (String × α)}
    (hS : List.Forall₂ S items ys) :
    List.Forall₂ R items (ofItems ys).items ↔ (∀ item ∈ items, P item) ∧ DistinctKeys rt items := by
  have hkeys : (items.map fun item => rt.pydantic.toStr item.1) = (ys.map Prod.fst).map some := by
    clear hR
    induction hS with
    | nil => rfl
    | cons hitem _ ih => rw [map_cons, map_cons, map_cons, hkey _ _ hitem, ih]
  have hdistinct : DistinctKeys rt items ↔ (ys.map Prod.fst).Nodup := by
    unfold DistinctKeys
    rw [hkeys]
    exact nodup_map_iff (fun _ _ => Option.some.inj)
  rw [hdistinct, ← forall₂_iff_of_forall₂ hR hS]
  constructor
  · intro h
    have hys : (ofItems ys).items = ys :=
      items_ofItems_iff.mpr (h.length_eq.symm.trans hS.length_eq)
    rw [hys] at h
    refine ⟨h, ?_⟩
    have hnodup := (ofItems ys).keys_nodup
    unfold Dict.keys at hnodup
    rwa [hys] at hnodup
  · rintro ⟨h, hnodup⟩
    rwa [items_ofItems (pairwise_map.mp hnodup)]

theorem forall₂_gather_keys_iff {α : Type} {step : PyValue × PyValue → Except PyException (Option (PyValue × α))}
    {R : PyValue × PyValue → String × α → Prop} {Q : PyValue × PyValue → Prop}
    (hkeep : ∀ item a, step item = .ok (some a) → a.1 = item.1 ∧ Q item)
    (hskip : ∀ item, step item = .ok none → ¬ Q item)
    (hR : ∀ item a name, step item = .ok (some a) → rt.pydantic.toStr item.1 = some name → R item (name, a.2))
    {items : Raw} {as : List (PyValue × α)} {d : Dict String α} (has : gather step items = .ok as)
    (hd : textKeys rt as = .ok d) :
    List.Forall₂ R items d.items ↔ (∀ item ∈ items, Q item) ∧ DistinctKeys rt items := by
  obtain ⟨ys, hys, rfl⟩ := textKeys_eq_ok rt hd
  have hstep : ∀ item a, step item = .ok (some a) → Q item ∧ step item = .ok (some a) :=
    fun item a ha => ⟨(hkeep item a ha).2, ha⟩
  -- when nothing is skipped, the entries correspond to those of the dictionary
  have hcorrespond (hall : ∀ item ∈ items, Q item) :
      List.Forall₂ R items (ofItems ys).items ↔ (∀ item ∈ items, Q item) ∧ DistinctKeys rt items := by
    have hitems := (forall₂_gather_iff hstep hskip has).mpr hall
    refine forall₂_ofItems_iff rt
      (S := fun item y => ∃ a, step item = .ok (some a) ∧ rt.pydantic.toStr a.1 = some y.1 ∧ a.2 = y.2)
      ?_ ?_ ?_
    · rintro item y ⟨a, ha, hname, -⟩
      rwa [← (hkeep item a ha).1]
    · rintro item ⟨name, _⟩ ⟨a, ha, hname, rfl⟩
      obtain ⟨hfst, hq⟩ := hkeep item a ha
      exact iff_of_true (hR item a name ha (hfst ▸ hname)) hq
    · exact forall₂_comp hitems hys
  refine ⟨fun h => (hcorrespond ?_).mp h, fun h => (hcorrespond h.1).mpr h⟩
  have hlength := h.length_eq
  have hle := length_items_ofItems_le ys
  have hgather := length_gather_le has
  have hkeys := hys.length_eq
  exact accepted_of_length_gather hstep has (by omega)

/-! ## Designs -/
variable {item : PyValue × PyValue}

theorem parsePosition_keeps {place : PyValue × ℚ × ℚ} {name : String} (h : parsePosition rt item = .ok (some place))
    (hname : rt.pydantic.toStr item.1 = some name) : KeepsPosition rt item (name, place.2) := by
  rw [parsePosition_eq] at h
  cases hxy : coordinates item.2 with
  | none =>
    rw [hxy] at h
    cases h
  | some xy =>
    rw [hxy] at h
    obtain ⟨x, hx, h⟩ := bind_eq_ok_iff.mp h
    obtain ⟨y, hy, h⟩ := bind_eq_ok_iff.mp h
    cases h
    exact ⟨hname, xy.1, xy.2, hxy, hx, hy⟩

theorem parseNetClass_keeps {cls : PyValue × NetClass} {name : String} (h : parseNetClass item = .ok (some cls))
    (hname : rt.pydantic.toStr item.1 = some name) : KeepsNetClass rt item (name, cls.2) := by
  obtain ⟨net_id, nc⟩ := item
  unfold parseNetClass at h
  cases nc with
  | str nc_str =>
    obtain ⟨c, hc, h⟩ := bind_eq_ok_iff.mp h
    cases h
    have hvalue : c.value = nc_str := by simpa using find?_some (orRaise_eq_ok_iff.mp hc)
    exact ⟨hname, by rw [hvalue]⟩
  | _ => cases h

variable {raw : Raw}

theorem elementsAt_eq {key : String} {entries : List PyValue}
    (h : ((lookup key raw).getD (.list [])).elements = some entries) : elementsAt key raw = entries := by
  unfold elementsAt
  cases hkey : lookup key raw with
  | none =>
    rw [hkey] at h
    exact Option.some.inj h
  | some v =>
    rw [hkey] at h
    exact congrArg (Option.getD · []) h

theorem itemsAt_eq {key : String} {raw items : Raw} (h : (lookup key raw).getD (.dict []) = .dict items) :
    itemsAt key raw = items := by
  unfold itemsAt
  cases hkey : lookup key raw with
  | none =>
    rw [hkey] at h
    cases h
    rfl
  | some v =>
    rw [hkey] at h
    cases h
    rfl

theorem keepsNet_iff {net : PyValue × Net} {name : String} (h : parseNet rt item = .ok net)
    (hname : rt.pydantic.toStr item.1 = some name) :
    KeepsNet rt item (name, net.2) ↔ ∀ node ∈ elementsAt "nodes" (item.2.items?.getD []), NodeShaped node := by
  obtain ⟨net_data, hdata, h⟩ := bind_eq_ok_iff.mp h
  obtain ⟨entries, hentries, h⟩ := bind_eq_ok_iff.mp h
  obtain ⟨nodes, hnodes, h⟩ := bind_eq_ok_iff.mp h
  obtain ⟨-, -, h⟩ := bind_eq_ok_iff.mp h
  obtain ⟨n, -, h⟩ := bind_eq_ok_iff.mp h
  cases h
  have hat : elementsAt "nodes" (item.2.items?.getD []) = entries := by
    rw [itemsOf_eq_ok_iff.mp hdata]
    exact elementsAt_eq (iterate_eq_ok_iff.mp hentries)
  unfold KeepsNet
  rw [hat]
  exact (and_iff_right hname).trans
    (forall₂_gather_iff (fun _ _ => parseNode_some rt) (fun _ => parseNode_none rt) hnodes)

theorem nets_iff {nets : List (PyValue × Net)} {d : Dict String Net} (hnets : parseNets rt raw = .ok nets)
    (hd : textKeys rt nets = .ok d) :
    List.Forall₂ (KeepsNet rt) (itemsAt "nets" raw) d.items ↔
      (∀ item ∈ itemsAt "nets" raw, ∀ node ∈ elementsAt "nodes" (item.2.items?.getD []), NodeShaped node) ∧
        DistinctKeys rt (itemsAt "nets" raw) := by
  obtain ⟨items, hitems, hnets⟩ := bind_eq_ok_iff.mp hnets
  obtain ⟨ys, hys, rfl⟩ := textKeys_eq_ok rt hd
  rw [itemsAt_eq (itemsOf_eq_ok_iff.mp hitems)]
  refine forall₂_ofItems_iff rt ?_ ?_ (forall₂_comp (mapM_eq_ok_iff.mp hnets) hys)
  · rintro item y ⟨net, hnet, hname, -⟩
    rwa [← parseNet_fst rt hnet]
  · rintro item ⟨name, _⟩ ⟨net, hnet, hname, rfl⟩
    exact keepsNet_iff rt hnet (parseNet_fst rt hnet ▸ hname)

theorem optional_keys_iff {α : Type} {step : PyValue × PyValue → Except PyException (Option (PyValue × α))}
    {R : PyValue × PyValue → String × α → Prop} {Q : PyValue × PyValue → Prop}
    (hkeep : ∀ item a, step item = .ok (some a) → a.1 = item.1 ∧ Q item)
    (hskip : ∀ item, step item = .ok none → ¬ Q item)
    (hR : ∀ item a name, step item = .ok (some a) → rt.pydantic.toStr item.1 = some name → R item (name, a.2))
    {key : String} {as : Option (List (PyValue × α))} {d : Option (Dict String α)}
    (has : optional (fun v => itemsOf v >>= fun items => gather step items) (lookup key raw) = .ok as)
    (hd : optional (textKeys rt) as = .ok d) :
    List.Forall₂ R (itemsAt key raw) (d.getD empty).items ↔
      (∀ item ∈ itemsAt key raw, Q item) ∧ DistinctKeys rt (itemsAt key raw) := by
  unfold itemsAt
  cases hkey : lookup key raw with
  | none =>
    rw [hkey] at has
    cases has
    cases hd
    exact iff_of_true .nil ⟨nofun, nodup_nil⟩
  | some v =>
    rw [hkey] at has
    obtain ⟨as, hgather, has⟩ := bind_eq_ok_iff.mp has
    cases has
    obtain ⟨d, hkeys, hd⟩ := bind_eq_ok_iff.mp hd
    cases hd
    obtain ⟨items, hitems, hgather⟩ := bind_eq_ok_iff.mp hgather
    rw [itemsOf_eq_ok_iff.mp hitems]
    exact forall₂_gather_keys_iff rt hkeep hskip hR hgather hkeys

theorem vias_iff {routing : Option RouteResult} (h : optional (parseRouting rt) (lookup "routing" raw) = .ok routing) :
    List.Forall₂ (KeepsVia rt) (elementsAt "vias" (itemsAt "routing" raw)) (routing.getD {}).vias ↔
      ∀ entry ∈ elementsAt "vias" (itemsAt "routing" raw), SequenceOf 4 entry := by
  unfold itemsAt
  cases hkey : lookup "routing" raw with
  | none =>
    rw [hkey] at h
    cases h
    exact iff_of_true .nil nofun
  | some r =>
    rw [hkey] at h
    obtain ⟨result, hresult, h⟩ := bind_eq_ok_iff.mp h
    cases h
    unfold parseRouting at hresult
    simp only [bind_eq_ok_iff] at hresult
    obtain ⟨items, hitems, _, -, _, -, entries, hentries, vias, hvias, _, -, _, -, _, -, _, -, _, -, hresult⟩ :=
      hresult
    cases hresult
    rw [itemsOf_eq_ok_iff.mp hitems]
    show List.Forall₂ _ (elementsAt "vias" items) vias ↔ ∀ entry ∈ elementsAt "vias" items, _
    rw [elementsAt_eq (iterate_eq_ok_iff.mp hentries)]
    exact forall₂_gather_iff (fun _ _ => parseVia_some rt) (fun _ => parseVia_none rt) hvias

theorem keepsPolygon_iff {polygon : PyValue} {points : List (ℚ × ℚ)} (h : parsePolygon rt polygon = .ok points) :
    KeepsPolygon rt polygon points ↔ ∀ entry ∈ polygon.elements.getD [], SequenceOf 2 entry := by
  obtain ⟨entries, hentries, hpoints⟩ := bind_eq_ok_iff.mp h
  unfold KeepsPolygon
  rw [iterate_eq_ok_iff.mp hentries]
  exact forall₂_gather_iff (fun _ _ => parsePoint_some rt) (fun _ => parsePoint_none rt) hpoints

theorem items?_of_not_truthy {v : PyValue} (h : ¬ v.truthy) : v.items?.getD [] = [] := by
  cases v with
  | dict items =>
    show items = []
    simpa [PyValue.truthy] using h
  | _ => rfl

theorem board_iff {board_def : Option BoardDefinition}
    (h : optional (parseBoardDefinition rt) ((lookup "board_def" raw).filter PyValue.truthy) = .ok board_def) :
    (List.Forall₂ (KeepsPoint rt) (elementsAt "outline" (itemsAt "board_def" raw)) (board_def.getD {}).outline ↔
      ∀ entry ∈ elementsAt "outline" (itemsAt "board_def" raw), SequenceOf 2 entry) ∧
    (List.Forall₂ (KeepsPolygon rt) (elementsAt "cutouts" (itemsAt "board_def" raw)) (board_def.getD {}).cutouts ↔
      ∀ polygon ∈ elementsAt "cutouts" (itemsAt "board_def" raw), ∀ entry ∈ polygon.elements.getD [],
        SequenceOf 2 entry) := by
  by_cases htruthy : ∃ bd, (lookup "board_def" raw).filter PyValue.truthy = some bd
  · obtain ⟨bd, hbd⟩ := htruthy
    rw [hbd] at h
    obtain ⟨board, hboard, h⟩ := bind_eq_ok_iff.mp h
    cases h
    unfold parseBoardDefinition at hboard
    simp only [bind_eq_ok_iff] at hboard
    obtain ⟨items, hitems, _, -, _, -, outline, houtline, polygons, hpolygons, cutouts, hcutouts, _, -, _, -, _, -,
      _, -, _, -, _, -, hboard⟩ := hboard
    cases hboard
    have hat : itemsAt "board_def" raw = items := by
      unfold itemsAt
      rw [(Option.filter_eq_some_iff.mp hbd).1, itemsOf_eq_ok_iff.mp hitems]
      rfl
    rw [hat]
    constructor
    · obtain ⟨entries, hentries, hpoints⟩ := bind_eq_ok_iff.mp houtline
      rw [elementsAt_eq (iterate_eq_ok_iff.mp hentries)]
      exact forall₂_gather_iff (fun _ _ => parsePoint_some rt) (fun _ => parsePoint_none rt) hpoints
    · rw [elementsAt_eq (iterate_eq_ok_iff.mp hpolygons)]
      exact forall₂_iff_of_forall₂ (S := fun polygon points => parsePolygon rt polygon = .ok points)
        (fun _ _ => keepsPolygon_iff rt) (mapM_eq_ok_iff.mp hcutouts)
  · have hnone : (lookup "board_def" raw).filter PyValue.truthy = none := by
      cases hfilter : (lookup "board_def" raw).filter PyValue.truthy with
      | none => rfl
      | some bd => exact absurd ⟨bd, hfilter⟩ htruthy
    rw [hnone] at h
    cases h
    have hat : itemsAt "board_def" raw = [] := by
      unfold itemsAt
      cases hkey : lookup "board_def" raw with
      | none => rfl
      | some v =>
        apply items?_of_not_truthy
        intro hv
        exact htruthy ⟨v, by rw [hkey, Option.filter_some_pos hv]⟩
    rw [hat]
    exact ⟨iff_of_true .nil nofun, iff_of_true .nil nofun⟩

/-- **A design that is built retains the entries of a well shaped mapping, and of no other.** -/
theorem retains_iff_wellShaped {design : Design} (h : buildDesign rt raw = .ok design) :
    Retains rt raw design ↔ WellShaped rt raw := by
  have hbuilt := (buildDesign_eq_ok_iff rt).mp h
  obtain ⟨nets, hnets, hnets'⟩ := hbuilt.nets
  obtain ⟨placement, hplacement, hplacement'⟩ := hbuilt.placement
  obtain ⟨net_classes, hnet_classes, hnet_classes'⟩ := hbuilt.net_classes
  have hn := nets_iff rt hnets hnets'
  have hp := optional_keys_iff rt (R := KeepsPosition rt) (fun _ _ => parsePosition_some rt)
    (fun _ => parsePosition_none rt) (fun _ _ _ => parsePosition_keeps rt) hplacement hplacement'
  have hc := optional_keys_iff rt (R := KeepsNetClass rt) (fun _ _ => parseNetClass_some)
    (fun _ => parseNetClass_none) (fun _ _ _ => parseNetClass_keeps rt) hnet_classes hnet_classes'
  have hv := vias_iff rt hbuilt.routing
  obtain ⟨ho, hk⟩ := board_iff rt hbuilt.board_def
  constructor
  · intro hretains
    exact ⟨(hn.mp hretains.nets).1, (hn.mp hretains.nets).2, (hp.mp hretains.placement).1,
      (hp.mp hretains.placement).2, hv.mp hretains.vias, (hc.mp hretains.net_classes).1,
      (hc.mp hretains.net_classes).2, ho.mp hretains.outline, hk.mp hretains.cutouts⟩
  · intro hshaped
    exact ⟨hn.mpr ⟨hshaped.nodes, hshaped.nets⟩, hp.mpr ⟨hshaped.positions, hshaped.placement⟩,
      hv.mpr hshaped.vias, hc.mpr ⟨hshaped.classes, hshaped.net_classes⟩, ho.mpr hshaped.outline,
      hk.mpr hshaped.cutouts⟩

/-! ## Files -/

theorem parseStr_of_error {e : PyException} (h : buildDesign rt raw = .error e) {content : String}
    (hload : rt.safe_load content = some (.dict raw)) {source : String} {strict : Bool}
    (hsignature : validateDesignSignature rt raw source strict = .ok ()) :
    parseStr rt content source strict = .error (.inl (reported e)) := by
  simp only [parseStr, hload, hsignature, h]
  rfl

/-- The build raises an exception, and every file with this mapping is reported with a parse error; or the design
that it builds retains the entries. -/
def LossFreeOrLoud (raw : Raw) : Prop :=
  (∃ e, buildDesign rt raw = .error e ∧ ∀ content source strict, rt.safe_load content = some (.dict raw) →
      validateDesignSignature rt raw source strict = .ok () →
        parseStr rt content source strict = .error (.inl (reported e))) ∨
    ∃ design, buildDesign rt raw = .ok design ∧ Retains rt raw design

/-- The validators take the values of their types and no others, except that a whole number is a float. -/
def plainPydantic : Pydantic where
  toStr
    | .str s => some s
    | _ => none
  toFloat
    | .float q => some q
    | .int i => some i
    | _ => none
  toInt
    | .int i => some i
    | _ => none
  toBool
    | .bool b => some b
    | _ => none
  toFloatOrStr
    | .float q => some (.inl q)
    | .int i => some (.inl i)
    | .str s => some (.inr s)
    | _ => none
  toJson v := v
  toStr_str _ := rfl
  toFloat_float _ := rfl
  toInt_int _ := rfl
  toBool_bool _ := rfl
  toFloatOrStr_float _ := rfl
  toFloatOrStr_str _ := rfl
  toJson_eq _ _ := rfl

/-- A net with one node, in which the pin is missing. -/
def openNet : Raw :=
  [(.str "nets", .dict [(.str "N1", .dict [(.str "name", .str "N1"), (.str "nodes", .list [.str "U1"])])])]

/-- Every file holds the open net, and no footprint is registered. -/
def plainRuntime : Runtime where
  pydantic := plainPydantic
  text := ⟨fun v => (text? v).getD "", fun v => (text? v).getD ""⟩
  float v := orRaise .typeError (plainPydantic.toFloat v)
  int v := orRaise .typeError (plainPydantic.toInt v)
  resolve_verified_footprint _ := .error .valueError
  same_footprint _ _ := false
  safe_load _ := some (.dict openNet)

end ZapTrace.Schema
