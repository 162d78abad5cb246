import Std.Data.String.ToNat
import ZapTrace.Export.VerifiedFootprint
import ZapTrace.Library.Fields
import ZapTrace.Library.Raising

/-!
# The identities of a vendor footprint

The seed of an identity has the reference of the component and the path to the identity in the file of the vendor.
A path is made of digits and points, so what is behind the last dash of a seed is either a path or the word of a
pad. Two seeds are the same only when the references and the places are.

## Main results

* `Place.seed_inj`: a seed has the reference and the place
* `renderVerifiedFootprint_seeds`: the identities of an instance are at distinct places
-/

namespace ZapTrace.VerifiedFootprint

open String hiding append_assoc map map_map
open Fields List

open SexpNode (atom list)

/-! ## Paths -/

def digits (i : ℕ) : List Char := (toString i).toList

theorem isDigit_of_mem_digits {i : ℕ} {c : Char} (h : c ∈ digits i) : c.isDigit := by
  unfold digits at h
  rw [Nat.toString_eq_repr, Nat.toList_repr] at h
  exact Nat.isDigit_of_mem_toDigits (by decide) (by decide) h

theorem digits_ne_nil (i : ℕ) : digits i ≠ [] := by
  unfold digits
  rw [Nat.toString_eq_repr, Nat.toList_repr]
  exact Nat.toDigits_ne_nil

theorem digits_injective : Function.Injective digits := by
  intro i j h
  exact Nat.repr_injective (toList_inj.mp h)

def pathText (path : List ℕ) : String := .ofList (joined '.' (path.map digits))

theorem pathText_singleton (i : ℕ) : pathText [i] = toString i := by
  apply toList_inj.mp
  rw [pathText, map_singleton, joined_singleton, toList_ofList, digits]

theorem pathText_concat {path : List ℕ} (hpath : path ≠ []) (i : ℕ) :
    pathText (path ++ [i]) = pathText path ++ "." ++ toString i := by
  unfold pathText
  rw [map_append, map_singleton, joined_append (by simpa using hpath) (cons_ne_nil _ _),
    joined_singleton]
  apply toList_inj.mp
  simp only [toList_append, toList_ofList, append_assoc]
  rfl

theorem pathText_injective : Function.Injective pathText := by
  intro first second h
  have hfield : ∀ path : List ℕ, ∀ part ∈ path.map digits, Fields.IsField (fun c => decide (c = '.')) part := by
    intro path part hpart
    obtain ⟨i, -, rfl⟩ := mem_map.mp hpart
    refine ⟨digits_ne_nil i, fun c hc => decide_eq_false ?_⟩
    rintro rfl
    exact absurd (isDigit_of_mem_digits hc) (by decide)
  -- the fields between the points are the digits again
  have hjoined := congrArg (fun s => fields (fun c => decide (c = '.')) s.toList) h
  have hfields : ∀ path : List ℕ,
      fields (fun c => decide (c = '.')) (pathText path).toList = path.map digits := by
    intro path
    rw [pathText, toList_ofList]
    exact fields_joined (p := fun c => decide (c = '.')) (by simp) (hfield path)
  simp only [hfields] at hjoined
  exact (map_injective_iff.mpr digits_injective) hjoined

theorem mem_pathText {path : List ℕ} {c : Char} (h : c ∈ (pathText path).toList) : c.isDigit ∨ c = '.' := by
  unfold pathText at h
  rw [toList_ofList] at h
  induction path with
  | nil => cases h
  | cons i rest ih =>
    cases rest with
    | nil =>
      rw [map_singleton, joined_singleton] at h
      exact .inl (isDigit_of_mem_digits h)
    | cons j rest =>
      rw [map_cons, map_cons, joined_cons_cons, mem_append, mem_cons] at h
      rcases h with h | h | h
      · exact .inl (isDigit_of_mem_digits h)
      · exact .inr h
      · exact ih h

/-! ## Places -/

mutual

/-- The paths to the identities of a node. -/
def identityPaths : SexpNode → List (List ℕ)
  | .atom _ => []
  | .list items => if IsIdentity items then [[]] else itemPaths items 0

def itemPaths : List SexpNode → ℕ → List (List ℕ)
  | [], _ => []
  | child :: children, index => (identityPaths child).map (cons index) ++ itemPaths children (index + 1)

end

theorem exists_of_mem_itemPaths {items : List SexpNode} {index : ℕ} {path : List ℕ}
    (h : path ∈ itemPaths items index) : ∃ i rest, index ≤ i ∧ path = i :: rest := by
  induction items generalizing index with
  | nil => cases h
  | cons child children ih =>
    rw [itemPaths, mem_append] at h
    rcases h with h | h
    · obtain ⟨rest, -, rfl⟩ := mem_map.mp h
      exact ⟨index, rest, le_rfl, rfl⟩
    · obtain ⟨i, rest, hi, rfl⟩ := ih h
      exact ⟨i, rest, Nat.le_of_succ_le hi, rfl⟩

theorem nodup_itemPaths {items : List SexpNode} (h : ∀ item ∈ items, (identityPaths item).Nodup) (index : ℕ) :
    (itemPaths items index).Nodup := by
  induction items generalizing index with
  | nil => exact nodup_nil
  | cons child children ih =>
    obtain ⟨hchild, hchildren⟩ := forall_mem_cons.mp h
    rw [itemPaths]
    apply List.Nodup.append (hchild.map (cons_injective)) (ih hchildren _)
    -- the paths of the other items start with a greater number
    rw [disjoint_left]
    intro path hpath hother
    obtain ⟨rest, -, rfl⟩ := mem_map.mp hpath
    obtain ⟨i, rest', hi, heq⟩ := exists_of_mem_itemPaths hother
    cases heq
    omega

theorem nodup_identityPaths (node : SexpNode) : (identityPaths node).Nodup := by
  induction node with
  | atom value => exact nodup_nil
  | list items ih =>
    rw [identityPaths]
    split
    · exact nodup_singleton _
    · exact nodup_itemPaths ih 0

section

variable (uuidFor : String → String) (ref : String)

theorem identityItems_seeds {items : List SexpNode} {path : List ℕ} (hpath : path ≠ [])
    (h : ∀ item ∈ items, ∀ path, path ≠ [] → (instanceIdentity uuidFor ref item (pathText path)).2 =
      (identityPaths item).map fun rest => vendorSeed ref (pathText (path ++ rest))) (index : ℕ) :
    (identityItems uuidFor ref items (pathText path) index).2 =
      (itemPaths items index).map fun rest => vendorSeed ref (pathText (path ++ rest)) := by
  induction items generalizing index with
  | nil => rfl
  | cons child children ih =>
    obtain ⟨hchild, hchildren⟩ := forall_mem_cons.mp h
    rw [identityItems, itemPaths, map_append, map_map, ih hchildren, ← pathText_concat hpath,
      hchild (path ++ [index]) (by simp)]
    show _ ++ _ = _ ++ _
    congr 1
    apply map_congr_left
    intro rest _
    simp

theorem instanceIdentity_seeds (node : SexpNode) : ∀ path, path ≠ [] →
    (instanceIdentity uuidFor ref node (pathText path)).2 =
      (identityPaths node).map fun rest => vendorSeed ref (pathText (path ++ rest)) := by
  induction node with
  | atom value =>
    intro path _
    rfl
  | list items ih =>
    intro path hpath
    rw [instanceIdentity, identityPaths]
    split
    · simp
    · exact identityItems_seeds uuidFor ref hpath ih 0

end

/-- Where an identity of an instance is: at a path in the file of the vendor, or at the end of a pad without one. -/
inductive Place
  | field (path : List ℕ)
  | pad (idx : ℕ)

def Place.seed (ref : String) : Place → String
  | field path => vendorSeed ref (pathText path)
  | pad idx => "vendor-" ++ ref ++ "-" ++ toString idx ++ "-pad"

/-- The expression of the vendor that the identity belongs to. -/
def Place.child : Place → Option ℕ
  | field path => path.head?
  | pad idx => some idx

theorem dash_notMem_pathText (path : List ℕ) : '-' ∉ (pathText path).toList := by
  intro h
  rcases mem_pathText h with h | h
  · exact absurd h (by decide)
  · exact absurd h (by decide)

theorem dash_notMem_digits (i : ℕ) : '-' ∉ (toString i).toList := fun h =>
  absurd (isDigit_of_mem_digits h) (by decide)

theorem append_dash_inj {before before' after after' : String} (h : '-' ∉ after.toList) (h' : '-' ∉ after'.toList)
    (heq : before ++ "-" ++ after = before' ++ "-" ++ after') : before = before' ∧ after = after' := by
  have hlist := congrArg toList heq
  simp only [toList_append, append_assoc] at hlist
  have hbefore : before.toList = before'.toList := Lists.eq_of_append_cons h h' hlist
  rw [hbefore] at hlist
  have hafter := append_cancel_left (append_cancel_left hlist)
  exact ⟨toList_inj.mp hbefore, toList_inj.mp hafter⟩

theorem vendor_inj {ref ref' : String} (h : "vendor-" ++ ref = "vendor-" ++ ref') : ref = ref' := by
  have hlist := congrArg toList h
  rw [toList_append, toList_append] at hlist
  exact toList_inj.mp (append_cancel_left hlist)

theorem pathText_ne_pad (path : List ℕ) : pathText path ≠ "pad" := by
  intro h
  have hmem : 'p' ∈ (pathText path).toList := by simp [h]
  rcases mem_pathText hmem with h | h
  · exact absurd h (by decide)
  · exact absurd h (by decide)

theorem Place.seed_pad (ref : String) (idx : ℕ) :
    (pad idx).seed ref = ("vendor-" ++ ref ++ "-" ++ toString idx) ++ "-" ++ "pad" := by
  apply toList_inj.mp
  simp [seed]

theorem Place.seed_inj {ref ref' : String} {place place' : Place} (h : place.seed ref = place'.seed ref') :
    ref = ref' ∧ place = place' := by
  have hpad : '-' ∉ "pad".toList := by simp
  cases place with
  | field path =>
    cases place' with
    | field path' =>
      obtain ⟨href, hpath⟩ := append_dash_inj (dash_notMem_pathText path) (dash_notMem_pathText path') h
      exact ⟨vendor_inj href, congrArg field (pathText_injective hpath)⟩
    | pad idx =>
      rw [seed_pad] at h
      exact absurd (append_dash_inj (dash_notMem_pathText path) hpad h).2 (pathText_ne_pad path)
  | pad idx =>
    rw [seed_pad] at h
    cases place' with
    | field path =>
      exact absurd (append_dash_inj hpad (dash_notMem_pathText path) h).2.symm (pathText_ne_pad path)
    | pad idx' =>
      rw [seed_pad] at h
      obtain ⟨hbefore, -⟩ := append_dash_inj hpad hpad h
      obtain ⟨href, hidx⟩ := append_dash_inj (dash_notMem_digits idx) (dash_notMem_digits idx') hbefore
      exact ⟨vendor_inj href, congrArg pad (digits_injective (congrArg toList hidx))⟩

/-! ## Instances -/

section

variable {vendor : Vendor} {uuidFor : String → String} {inst : Instance}

theorem itemPlaces (items : List SexpNode) (ref : String) (idx : ℕ) :
    ∃ paths : List (List ℕ), (identityItems uuidFor ref items (toString idx) 0).2 =
        (paths.map fun path => Place.field (idx :: path)).map (Place.seed ref) ∧ paths.Nodup := by
  refine ⟨itemPaths items 0, ?_, nodup_itemPaths (fun item _ => nodup_identityPaths item) 0⟩
  rw [← pathText_singleton,
    identityItems_seeds uuidFor ref (cons_ne_nil _ _) (fun item _ => instanceIdentity_seeds uuidFor ref item) 0,
    map_map]
  rfl

/-- The seeds are those of distinct places, all of which belong to the expression with the number. -/
def SeedsOf (ref : String) (idx : ℕ) (seeds : List String) : Prop :=
  ∃ places : List Place, seeds = places.map (Place.seed ref) ∧ places.Nodup ∧
    ∀ place ∈ places, place.child = some idx

theorem seedsOf_items {ref : String} {idx : ℕ} (items : List SexpNode) :
    SeedsOf ref idx (identityItems uuidFor ref items (toString idx) 0).2 := by
  obtain ⟨paths, hseeds, hnodup⟩ := @itemPlaces uuidFor items ref idx
  refine ⟨_, hseeds, hnodup.map ?_, ?_⟩
  · intro path path' h
    cases h
    rfl
  · intro place hplace
    obtain ⟨path, -, rfl⟩ := mem_map.mp hplace
    rfl

theorem seedsOf_pad {ref : String} {idx : ℕ} (items : List SexpNode) :
    SeedsOf ref idx ((identityItems uuidFor ref items (toString idx) 0).2 ++ [(Place.pad idx).seed ref]) := by
  obtain ⟨paths, hseeds, hnodup⟩ := @itemPlaces uuidFor items ref idx
  refine ⟨(paths.map fun path => Place.field (idx :: path)) ++ [.pad idx], ?_, ?_, ?_⟩
  · rw [hseeds, map_append]
    rfl
  · rw [nodup_append]
    refine ⟨hnodup.map ?_, nodup_singleton _, ?_⟩
    · intro path path' h
      cases h
      rfl
    · intro place hplace other hother heq
      obtain ⟨path, -, rfl⟩ := mem_map.mp hplace
      rw [mem_singleton.mp hother] at heq
      cases heq
  · intro place hplace
    rw [mem_append, mem_singleton] at hplace
    rcases hplace with hplace | rfl
    · obtain ⟨path, -, rfl⟩ := mem_map.mp hplace
      rfl
    · rfl

theorem padIdentity_seeds {ref : String} {idx : ℕ} {name : SexpNode} {items items' : List SexpNode}
    {seeds : List String} (h : padIdentity vendor uuidFor ref idx name items = .ok (items', seeds)) :
    seeds = [] ∨ seeds = [(Place.pad idx).seed ref] := by
  unfold padIdentity at h
  split at h
  · cases h
    exact .inr rfl
  · cases h
    exact .inl rfl
  · cases h

theorem embedChild_seeds {node : SexpNode} {idx : ℕ} {embedded : Embedded}
    (h : embedChild vendor uuidFor inst (node, idx) = .ok (some embedded)) :
    SeedsOf inst.component.ref idx embedded.seeds := by
  cases node with
  | atom value => cases h
  | list items =>
    cases items with
    | nil => cases h
    | cons head rest =>
      rw [embedChild] at h
      split at h
      · cases h
      · obtain ⟨⟨items, mapped_pads, properties_seen⟩, -, h⟩ := Raising.bind_eq_ok_iff.mp h
        dsimp only at h
        split at h
        · obtain ⟨⟨items', pad_seeds⟩, hidentity, h⟩ := Raising.bind_eq_ok_iff.mp h
          cases h
          rcases padIdentity_seeds hidentity with hseeds | hseeds
          · rw [hseeds, append_nil]
            exact seedsOf_items items
          · rw [hseeds]
            exact seedsOf_pad items
        · cases h
          exact seedsOf_items items

/-- The seeds of all expressions are those of distinct places. -/
theorem gather_seeds {children : List SexpNode} {start : ℕ} {embedded : List Embedded}
    (h : Lists.gather (embedChild vendor uuidFor inst) (children.zipIdx start) = .ok embedded) :
    ∃ places : List Place, embedded.flatMap Embedded.seeds = places.map (Place.seed inst.component.ref) ∧
      places.Nodup ∧ ∀ place ∈ places, ∃ idx, start ≤ idx ∧ place.child = some idx := by
  obtain ⟨results, hresults, rfl⟩ := Lists.gather_eq_ok_iff.mp h
  clear h
  induction children generalizing start results with
  | nil =>
    rw [zipIdx_nil] at hresults
    cases hresults
    exact ⟨[], rfl, nodup_nil, fun place hplace => absurd hplace not_mem_nil⟩
  | cons child children ih =>
    rw [zipIdx_cons] at hresults
    cases hresults with
    | @cons _ result _ rest hchild hchildren =>
      obtain ⟨places, hseeds, hnodup, hplaces⟩ := ih _ hchildren
      have hlater : ∀ place ∈ places, ∃ idx, start ≤ idx ∧ place.child = some idx := by
        intro place hplace
        obtain ⟨idx, hidx, hplace⟩ := hplaces place hplace
        exact ⟨idx, Nat.le_of_succ_le hidx, hplace⟩
      cases result with
      | none => exact ⟨places, hseeds, hnodup, hlater⟩
      | some first =>
        obtain ⟨places', hseeds', hnodup', hplaces'⟩ := embedChild_seeds hchild
        refine ⟨places' ++ places, ?_, hnodup'.append hnodup ?_, ?_⟩
        · rw [map_append, ← hseeds, ← hseeds']
          rfl
        · rw [disjoint_left]
          intro place hplace hother
          obtain ⟨idx, hidx, hchild⟩ := hplaces place hother
          rw [hplaces' place hplace] at hchild
          cases hchild
          omega
        · intro place hplace
          rcases mem_append.mp hplace with hplace | hplace
          · exact ⟨start, le_rfl, hplaces' place hplace⟩
          · exact hlater place hplace

/-- The identities of an instance: that of the footprint, and those at distinct places. -/
theorem renderVerifiedFootprint_seeds {float : ℚ → String} {asset : String} {node : SexpNode} {seeds : List String}
    (h : renderVerifiedFootprint vendor uuidFor inst float asset = .ok (node, seeds)) :
    ∃ places : List Place, places.Nodup ∧
      seeds = ("footprint-" ++ inst.component.ref) :: places.map (Place.seed inst.component.ref) := by
  unfold renderVerifiedFootprint at h
  obtain ⟨⟨filename, root⟩, -, h⟩ := Raising.bind_eq_ok_iff.mp h
  obtain ⟨⟨root_name, children⟩, -, h⟩ := Raising.bind_eq_ok_iff.mp h
  obtain ⟨embedded, hembedded, h⟩ := Raising.bind_eq_ok_iff.mp h
  dsimp only at h
  split at h
  · cases h
  · split at h
    · cases h
      obtain ⟨places, hseeds, hnodup, -⟩ := gather_seeds hembedded
      exact ⟨places, hnodup, by rw [hseeds]⟩
    · cases h

end

end ZapTrace.VerifiedFootprint
