import Mathlib.Data.List.Dedup
import ZapTrace.Library.Dict

/-!
# The last value of a key

A dictionary that is built item by item keeps the last value of each key, so what it holds depends on the order of
the items. Any value of a key can be the last one in some order, and the orders for different keys do not get in each
other's way.

## Main results

* `Dict.get?_foldl_set`, `Dict.get?_ofItems`, `Dict.get?_update`: the last value
* `Dict.exists_perm_getLast?`, `Dict.exists_perm_forall_getLast?`: an order with given last values
-/

namespace Dict

open List

variable {κ α β : Type} [DecidableEq κ]

def valuesAt (items : List (κ × α)) (k : κ) : List α :=
  items.filterMap fun item => if item.1 = k then some item.2 else none

theorem valuesAt_append (items items' : List (κ × α)) (k : κ) :
    valuesAt (items ++ items') k = valuesAt items k ++ valuesAt items' k := filterMap_append

theorem valuesAt_singleton (item : κ × α) (k : κ) : valuesAt [item] k = if item.1 = k then [item.2] else [] := by
  unfold valuesAt
  split <;> simp [*]

theorem mem_valuesAt_iff {items : List (κ × α)} {k : κ} {a : α} : a ∈ valuesAt items k ↔ (k, a) ∈ items := by
  unfold valuesAt
  rw [mem_filterMap]
  constructor
  · rintro ⟨⟨l, b⟩, hmem, h⟩
    split at h
    next hk =>
      obtain rfl := Option.some.inj h
      exact hk ▸ hmem
    next => cases h
  · exact fun hmem => ⟨(k, a), hmem, if_pos rfl⟩

theorem valuesAt_perm {items items' : List (κ × α)} (h : items.Perm items') (k : κ) :
    (valuesAt items k).Perm (valuesAt items' k) := h.filterMap _

theorem get?_foldl_set (items : List (κ × α)) (d : Dict κ α) (k : κ) :
    (items.foldl (fun d item => d.set item.1 item.2) d).get? k = (valuesAt items k).getLast?.or (d.get? k) := by
  induction items using reverseRecOn with
  | nil => rfl
  | append_singleton items item ih =>
    rw [foldl_concat, get?_set, ih, valuesAt_append, valuesAt_singleton]
    by_cases hk : item.1 = k
    · rw [if_pos hk.symm, if_pos hk, getLast?_concat, Option.some_or]
    · rw [if_neg (Ne.symm hk), if_neg hk, append_nil]

theorem get?_ofItems (items : List (κ × α)) (k : κ) : (ofItems items).get? k = (valuesAt items k).getLast? := by
  rw [ofItems, get?_foldl_set]
  exact Option.or_none

/-- `d.update(e)` -/
def update (d e : Dict κ α) : Dict κ α := e.items.foldl (fun d item => d.set item.1 item.2) d

theorem get?_update (d e : Dict κ α) (k : κ) : (d.update e).get? k = (e.get? k).or (d.get? k) := by
  rw [update, get?_foldl_set, ← get?_ofItems, ofItems_items]

/-- **An order with given last values.** Each item may come from something that is ordered with it. -/
theorem exists_perm_getLast? (item : β → Option (κ × α)) (choice : κ → α) (xs : List β) (ks : List κ)
    (hnodup : ks.Nodup)
    (hchoice : ∀ k ∈ ks, valuesAt (xs.filterMap item) k ≠ [] → choice k ∈ valuesAt (xs.filterMap item) k) :
    ∃ ys : List β, ys.Perm xs ∧
      (∀ k ∈ ks, valuesAt (xs.filterMap item) k ≠ [] →
        (valuesAt (ys.filterMap item) k).getLast? = some (choice k)) ∧
      ∀ k, k ∉ ks → valuesAt (ys.filterMap item) k = valuesAt (xs.filterMap item) k := by
  induction ks with
  | nil => exact ⟨xs, List.Perm.refl xs, fun _ hk => absurd hk not_mem_nil, fun _ _ => rfl⟩
  | cons k ks ih =>
    obtain ⟨hk, hks⟩ := nodup_cons.mp hnodup
    obtain ⟨ys, hperm, hlast, hother⟩ := ih hks fun l hl => hchoice l (mem_cons_of_mem k hl)
    by_cases hempty : valuesAt (xs.filterMap item) k = []
    · refine ⟨ys, hperm, fun l hl hsome => ?_, fun l hl => hother l fun hmem => hl (mem_cons_of_mem k hmem)⟩
      rcases mem_cons.mp hl with rfl | hl
      · exact absurd hempty hsome
      · exact hlast l hl hsome
    · -- one that has the value goes to the end
      have hmem := hchoice k mem_cons_self hempty
      rw [← (valuesAt_perm (hperm.filterMap item) k).mem_iff, mem_valuesAt_iff] at hmem
      obtain ⟨b, hb, hitem⟩ := mem_filterMap.mp hmem
      obtain ⟨before, after, rfl⟩ := append_of_mem hb
      have hvalues : ∀ l, valuesAt ((before ++ after ++ [b]).filterMap item) l =
          valuesAt (before.filterMap item) l ++ valuesAt (after.filterMap item) l ++
            if k = l then [choice k] else [] := by
        intro l
        rw [filterMap_append, filterMap_append, valuesAt_append, valuesAt_append]
        congr 1
        rw [filterMap_cons_some hitem, filterMap_nil, valuesAt_singleton]
      have hsame : ∀ l, l ≠ k → valuesAt ((before ++ after ++ [b]).filterMap item) l =
          valuesAt ((before ++ b :: after).filterMap item) l := by
        intro l hl
        rw [hvalues, if_neg (Ne.symm hl), append_nil, filterMap_append, valuesAt_append,
          filterMap_cons_some hitem, ← singleton_append, valuesAt_append, valuesAt_singleton,
          if_neg (Ne.symm hl), nil_append]
      refine ⟨before ++ after ++ [b], ?_, ?_, ?_⟩
      · refine List.Perm.trans ?_ hperm
        rw [append_assoc]
        exact (perm_append_singleton b after).append_left before
      · intro l hl hsome
        by_cases hlk : l = k
        · rw [hlk, hvalues, if_pos rfl, getLast?_concat]
        · rw [hsame l hlk]
          exact hlast l ((mem_cons.mp hl).resolve_left hlk) hsome
      · intro l hl
        have hlk : l ≠ k := fun heq => hl (heq ▸ mem_cons_self)
        rw [hsame l hlk]
        exact hother l fun hmem => hl (mem_cons_of_mem k hmem)

theorem exists_perm_forall_getLast? (item : β → Option (κ × α)) (choice : κ → α) (xs : List β)
    (hchoice : ∀ k, valuesAt (xs.filterMap item) k ≠ [] → choice k ∈ valuesAt (xs.filterMap item) k) :
    ∃ ys : List β, ys.Perm xs ∧
      ∀ k, valuesAt (xs.filterMap item) k ≠ [] → (valuesAt (ys.filterMap item) k).getLast? = some (choice k) := by
  obtain ⟨ys, hperm, hlast, -⟩ := exists_perm_getLast? item choice xs ((xs.filterMap item).map Prod.fst).dedup
    (nodup_dedup _) fun k _ => hchoice k
  refine ⟨ys, hperm, fun k hk => hlast k ?_ hk⟩
  obtain ⟨a, ha⟩ := exists_mem_of_ne_nil _ hk
  exact mem_dedup.mpr (mem_map.mpr ⟨(k, a), mem_valuesAt_iff.mp ha, rfl⟩)

end Dict
