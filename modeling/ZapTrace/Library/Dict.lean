import Mathlib.Data.List.Basic
import Mathlib.Data.List.Induction
import ZapTrace.Library.Table

/-!
# Dictionaries in insertion order

A dictionary is a keyed table of pairs: its keys are distinct, and its items stand in the order in
which their keys were first inserted. Setting a key that is there changes its value in place.

## Main results

* `Dict.get?_eq_some_iff`: what a key maps to is the item that has it
* `Dict.get?_set`, `Dict.get?_erase`, `Dict.getIn_setIn`, `Dict.getIn_eraseIn`: lookups after an
  update
* `Dict.get?_indexBy_iff`: lookups among values with distinct keys
* `Dict.length_values_indexBy_iff`: no value is lost exactly when the keys are distinct
* `Dict.get?_foldl_setDefault`: lookups after a loop that gives defaults to missing keys
-/

/-- A dictionary: items with distinct keys, in the order of their insertion. -/
structure Dict (κ α : Type) where
  items : List (κ × α)
  keyed : Table.Keyed Prod.fst items

namespace Dict

open Option hiding filter filter_map map map_map
open List Table

variable {κ α : Type}

def empty : Dict κ α := ⟨[], keyed_nil⟩

instance : Inhabited (Dict κ α) := ⟨empty⟩

/-- The keys in the order of their insertion. -/
def keys (d : Dict κ α) : List κ := d.items.map Prod.fst

variable [DecidableEq κ]

/-- `d.get(key)` -/
def get? (d : Dict κ α) (k : κ) : Option α := (find Prod.fst d.items k).map Prod.snd

/-- `d[key] = value` -/
def set (d : Dict κ α) (k : κ) (a : α) : Dict κ α where
  items := upsert Prod.fst (fun item => (item.1, a)) (k, a) d.items
  keyed := d.keyed.upsert fun _ => rfl

/-- `d.pop(key, None)` -/
def erase (d : Dict κ α) (k : κ) : Dict κ α where
  items := d.items.filter fun item => item.1 ≠ k
  keyed := d.keyed.filter _

omit [DecidableEq κ] in
theorem ext_items {d d' : Dict κ α} (h : d.items = d'.items) : d = d' := by
  cases d
  cases d'
  cases h
  rfl
variable {d : Dict κ α} {k : κ} {a : α}

theorem get?_eq_some_iff : d.get? k = some a ↔ (k, a) ∈ d.items := by
  constructor
  · intro h
    obtain ⟨⟨k', a'⟩, hfind, rfl⟩ := map_eq_some_iff.mp h
    obtain ⟨hmem, rfl⟩ := mem_of_find hfind
    exact hmem
  · intro h
    rw [get?, (find_eq_some_iff d.keyed).mpr ⟨h, rfl⟩]
    rfl

@[simp] theorem get?_empty (k : κ) : (empty : Dict κ α).get? k = none := rfl

theorem get?_set (d : Dict κ α) (k k' : κ) (a : α) :
    (d.set k a).get? k' = if k' = k then some a else d.get? k' := by
  split
  · rename_i h
    rw [h, get?_eq_some_iff]
    simp only [set, upsert]
    split
    · exact mem_append_right _ (mem_singleton_self _)
    · -- the item of the key is changed in place
      rename_i hfind
      obtain ⟨item, hitem⟩ := ne_none_iff_exists'.mp hfind
      obtain ⟨hmem, hkey⟩ := mem_of_find hitem
      refine mem_map.mpr ⟨item, hmem, ?_⟩
      rw [if_pos hkey, hkey]
  · rename_i h
    refine ext fun b => ?_
    rw [get?_eq_some_iff, get?_eq_some_iff]
    refine ⟨fun hmem => ?_, fun hmem => mem_upsert_of_ne hmem h⟩
    rcases mem_upsert hmem with ⟨hmem, -⟩ | heq | ⟨old, -, hkey, heq⟩
    · exact hmem
    · exact absurd (congrArg Prod.fst heq) h
    · exact absurd ((congrArg Prod.fst heq).trans hkey) h

@[simp] theorem get?_set_self (d : Dict κ α) (k : κ) (a : α) : (d.set k a).get? k = some a := by
  rw [get?_set, if_pos rfl]

theorem get?_set_of_ne (d : Dict κ α) {k k' : κ} (a : α) (h : k' ≠ k) :
    (d.set k a).get? k' = d.get? k' := by
  rw [get?_set, if_neg h]

theorem forall_get?_set {P : κ → α → Prop} (h : ∀ l b, d.get? l = some b → P l b) (hka : P k a) :
    ∀ l b, (d.set k a).get? l = some b → P l b := by
  intro l b hb
  rw [get?_set] at hb
  split at hb
  · rename_i hl
    cases hb
    exact hl ▸ hka
  · exact h l b hb

theorem get?_erase (d : Dict κ α) (k k' : κ) :
    (d.erase k).get? k' = if k' = k then none else d.get? k' := by
  split
  · rename_i h
    rw [eq_none_iff_forall_ne_some, h]
    intro a ha
    have := (mem_filter.mp (get?_eq_some_iff.mp ha)).2
    simp at this
  · rename_i h
    refine ext fun a => ?_
    rw [get?_eq_some_iff, get?_eq_some_iff]
    exact ⟨fun hmem => (mem_filter.mp hmem).1,
      fun hmem => mem_filter.mpr ⟨hmem, by simpa using h⟩⟩

theorem get?_foldl_erase (ks : List κ) (d : Dict κ α) (k : κ) :
    (ks.foldl erase d).get? k = if k ∈ ks then none else d.get? k := by
  induction ks generalizing d with
  | nil => rfl
  | cons k' ks ih =>
    rw [foldl_cons, ih, get?_erase]
    by_cases h : k ∈ ks <;> by_cases hk : k = k' <;> simp [h, hk]

/-! ## Keys -/

theorem mem_keys_iff : k ∈ d.keys ↔ ∃ a, d.get? k = some a := by
  simp only [keys, List.mem_map, get?_eq_some_iff]
  constructor
  · rintro ⟨⟨k', a⟩, hmem, rfl⟩
    exact ⟨a, hmem⟩
  · rintro ⟨a, hmem⟩
    exact ⟨(k, a), hmem, rfl⟩

theorem not_mem_keys_iff : k ∉ d.keys ↔ d.get? k = none := by
  rw [mem_keys_iff, ← ne_none_iff_exists', not_not]

omit [DecidableEq κ] in
theorem keys_nodup (d : Dict κ α) : d.keys.Nodup := pairwise_map.mpr d.keyed

theorem keys_set_of_mem (h : k ∈ d.keys) (a : α) : (d.set k a).keys = d.keys := by
  obtain ⟨old, hold⟩ := mem_keys_iff.mp h
  have hfind : find Prod.fst d.items k ≠ none := by
    intro hnone
    rw [get?, hnone] at hold
    cases hold
  show (upsert Prod.fst (fun item => (item.1, a)) (k, a) d.items).map Prod.fst = d.keys
  rw [upsert, if_neg hfind, map_map]
  apply map_congr_left
  intro item _
  dsimp only [Function.comp]
  split <;> rfl

theorem set_eq_self_iff : d.set k a = d ↔ d.get? k = some a := by
  constructor
  · intro h
    rw [← h, get?_set_self]
  · intro h
    obtain ⟨item, hitem, rfl⟩ := map_eq_some_iff.mp h
    obtain ⟨before, after, hsplit, hupsert⟩ :=
      upsert_eq_of_find (fun old => (old.1, item.2)) (k, item.2) d.keyed hitem
    obtain ⟨-, hkey⟩ := mem_of_find hitem
    apply ext_items
    show upsert Prod.fst (fun old => (old.1, item.2)) (k, item.2) d.items = d.items
    rw [hupsert, hsplit]

theorem keys_set_of_not_mem (h : k ∉ d.keys) (a : α) : (d.set k a).keys = d.keys ++ [k] := by
  have hfind : find Prod.fst d.items k = none :=
    find_eq_none.mpr fun item hitem hkey => h (hkey ▸ mem_map_of_mem hitem)
  show (upsert Prod.fst (fun item => (item.1, a)) (k, a) d.items).map Prod.fst = d.keys ++ [k]
  rw [upsert, if_pos hfind, map_append]
  rfl

theorem length_keys_erase_le (d : Dict κ α) (k : κ) : (d.erase k).keys.length ≤ d.keys.length := by
  simp only [keys, erase, length_map]
  exact length_filter_le _ _

theorem length_keys_erase_lt (h : k ∈ d.keys) : (d.erase k).keys.length < d.keys.length := by
  simp only [keys, erase, length_map]
  obtain ⟨item, hitem, rfl⟩ := mem_map.mp h
  exact length_filter_lt_length_iff_exists.mpr ⟨item, hitem, by simp⟩

theorem erase_of_not_mem (h : k ∉ d.keys) : d.erase k = d := by
  have hitems : (d.erase k).items = d.items := by
    apply filter_eq_self.mpr
    intro item hitem
    have hne : item.1 ≠ k := fun hk => h (hk ▸ mem_map_of_mem hitem)
    simpa using hne
  rcases d with ⟨items, keyed⟩
  simpa [erase] using hitems

theorem keys_erase (d : Dict κ α) (k : κ) : (d.erase k).keys = d.keys.filter fun l => l ≠ k := by
  rw [keys, keys, filter_map]
  rfl

theorem eq_of_get?_foldl_set {v a : α} {ks : List κ}
    (h : (ks.foldl (fun d l => d.set l v) (empty : Dict κ α)).get? k = some a) : a = v := by
  induction ks using reverseRecOn with
  | nil => cases h
  | append_singleton ks l ih =>
    rw [foldl_append, foldl_cons, foldl_nil, get?_set] at h
    split at h
    · exact (some.inj h).symm
    · exact ih h

/-! ## From a list of items -/

/-- `dict(items)`; of several items with one key the last value stays. -/
def ofItems (items : List (κ × α)) : Dict κ α :=
  items.foldl (fun d item => d.set item.1 item.2) empty

theorem ofItems_concat (items : List (κ × α)) (item : κ × α) :
    ofItems (items ++ [item]) = (ofItems items).set item.1 item.2 := by
  simp [ofItems, foldl_append]
variable {items : List (κ × α)}

theorem items_ofItems (h : Table.Keyed Prod.fst items) : (ofItems items).items = items := by
  induction items using reverseRecOn with
  | nil => rfl
  | append_singleton items item ih =>
    obtain ⟨hitems, -, hnew⟩ := pairwise_append.mp h
    have hfind : find Prod.fst items item.1 = none :=
      find_eq_none.mpr fun other hother => hnew other hother item mem_cons_self
    rw [ofItems_concat]
    show upsert Prod.fst _ (item.1, item.2) (ofItems items).items = items ++ [item]
    rw [ih hitems, upsert, if_pos hfind]

theorem length_items_ofItems_le (items : List (κ × α)) : (ofItems items).items.length ≤ items.length := by
  induction items using reverseRecOn with
  | nil => exact Nat.le_refl 0
  | append_singleton items item ih =>
    rw [ofItems_concat, length_append, length_singleton]
    show (upsert Prod.fst _ (item.1, item.2) (ofItems items).items).length ≤ _
    unfold upsert
    split
    · rw [length_append, length_singleton]
      omega
    · rw [length_map]
      omega

/-- A dictionary that has as many items as it was built from has these items. -/
theorem items_ofItems_iff : (ofItems items).items = items ↔ (ofItems items).items.length = items.length := by
  refine ⟨congrArg length, fun hlength => items_ofItems ?_⟩
  induction items using reverseRecOn with
  | nil => exact keyed_nil
  | append_singleton items item ih =>
    have hle := length_items_ofItems_le items
    rw [ofItems_concat, length_append, length_singleton] at hlength
    have hupsert : (upsert Prod.fst (fun other => (other.1, item.2)) (item.1, item.2)
        (ofItems items).items).length = items.length + 1 := hlength
    unfold upsert at hupsert
    split at hupsert
    next hfind =>
      -- the key is new
      rw [length_append, length_singleton] at hupsert
      have hkeyed := ih (by omega)
      rw [items_ofItems hkeyed] at hfind
      refine pairwise_append.mpr ⟨hkeyed, pairwise_singleton _ _, fun other hother last hlast => ?_⟩
      rw [mem_singleton.mp hlast]
      exact find_eq_none.mp hfind other hother
    next =>
      rw [length_map] at hupsert
      omega

/-- Where no key has two values, the dictionary has the items. -/
theorem get?_ofItems_iff (h : ∀ k a b, (k, a) ∈ items → (k, b) ∈ items → a = b) :
    (ofItems items).get? k = some a ↔ (k, a) ∈ items := by
  induction items using reverseRecOn with
  | nil => exact iff_of_false nofun not_mem_nil
  | append_singleton items item ih =>
    have hitems := ih fun k a b ha hb => h k a b (mem_append_left _ ha) (mem_append_left _ hb)
    rw [ofItems_concat, get?_set, mem_append, mem_singleton]
    by_cases hk : k = item.1
    · subst hk
      rw [if_pos rfl, some.injEq]
      constructor
      · rintro rfl
        exact .inr rfl
      · rintro (hmem | heq)
        · exact h item.1 item.2 a (mem_append_right _ mem_cons_self) (mem_append_left _ hmem)
        · rw [← heq]
    · rw [if_neg hk, hitems]
      refine (or_iff_left fun heq => hk ?_).symm
      rw [← heq]

@[simp] theorem ofItems_items (d : Dict κ α) : ofItems d.items = d := by
  obtain ⟨items, keyed⟩ := d
  have h := items_ofItems keyed
  cases hd : ofItems items
  simp_all

/-! ## Values -/

omit [DecidableEq κ] in
/-- The values, in the order of the keys. -/
def values (d : Dict κ α) : List α := d.items.map Prod.snd

omit [DecidableEq κ] in
/-- `{k: f(a) for k, a in d.items()}` -/
def mapValues {β : Type} (f : α → β) (d : Dict κ α) : Dict κ β where
  items := d.items.map fun item => (item.1, f item.2)
  keyed := by
    rw [Table.Keyed, pairwise_map]
    exact d.keyed

theorem get?_mapValues {β : Type} (f : α → β) (d : Dict κ α) (k : κ) :
    (d.mapValues f).get? k = (d.get? k).map f := by
  unfold get? mapValues find
  rw [find?_map, Option.map_map, Option.map_map]
  rfl

/-- `{key(a): a for a in xs}`; of several items with one key the last one stays. -/
def indexBy (key : α → κ) (xs : List α) : Dict κ α := xs.foldl (fun d a => d.set (key a) a) empty

theorem mem_values_of_get? (h : d.get? k = some a) : a ∈ d.values :=
  mem_map.mpr ⟨(k, a), get?_eq_some_iff.mp h, rfl⟩

theorem indexBy_concat (key : α → κ) (xs : List α) (a : α) :
    indexBy key (xs ++ [a]) = (indexBy key xs).set (key a) a := by
  simp [indexBy, foldl_append]

variable {key : α → κ}

/-- When the keys are distinct, a key finds the item that has it. -/
theorem get?_indexBy_iff {xs : List α} (h : (xs.map key).Nodup) :
    (indexBy key xs).get? k = some a ↔ a ∈ xs ∧ key a = k := by
  induction xs using reverseRecOn with
  | nil => simp [indexBy]
  | append_singleton xs b ih =>
    rw [map_append, nodup_append] at h
    obtain ⟨hxs, -, hdisjoint⟩ := h
    have hnew : ∀ c ∈ xs, key c ≠ key b := fun c hc =>
      hdisjoint _ (mem_map_of_mem hc) _ mem_cons_self
    rw [indexBy_concat, get?_set]
    split
    · rename_i hk
      constructor
      · rintro ⟨⟩
        exact ⟨mem_append_right _ (mem_singleton_self _), hk.symm⟩
      · rintro ⟨hmem, hkey⟩
        rcases mem_append.mp hmem with hmem | hmem
        · exact absurd (hkey.trans hk) (hnew a hmem)
        · rw [mem_singleton.mp hmem]
    · rename_i hk
      rw [ih hxs]
      constructor
      · rintro ⟨hmem, hkey⟩
        exact ⟨mem_append_left _ hmem, hkey⟩
      · rintro ⟨hmem, hkey⟩
        refine ⟨(mem_append.mp hmem).resolve_right fun hb => hk ?_, hkey⟩
        rw [← hkey, mem_singleton.mp hb]

theorem indexBy_eq_ofItems (key : α → κ) (xs : List α) : indexBy key xs = ofItems (xs.map fun a => (key a, a)) := by
  rw [ofItems, foldl_map]
  rfl

theorem values_indexBy {xs : List α} (h : (xs.map key).Nodup) : (indexBy key xs).values = xs := by
  have hkeyed : Table.Keyed Prod.fst (xs.map fun a => (key a, a)) := pairwise_map.mpr (pairwise_map.mp h)
  rw [values, indexBy_eq_ofItems, items_ofItems hkeyed, map_map]
  exact map_id' xs

/-- There are as many values as there were exactly when their keys are distinct. -/
theorem length_values_indexBy_iff {xs : List α} : (indexBy key xs).values.length = xs.length ↔ (xs.map key).Nodup := by
  refine ⟨fun hlength => ?_, fun h => congrArg length (values_indexBy h)⟩
  rw [values, length_map, indexBy_eq_ofItems] at hlength
  have hitems := items_ofItems_iff.mpr (hlength.trans (length_map _).symm)
  have hkeyed := (ofItems (xs.map fun a => (key a, a))).keyed
  rw [hitems, Table.Keyed, pairwise_map] at hkeyed
  exact pairwise_map.mpr hkeyed

/-! ## Accumulating values -/

variable {β : Type}

/-- `for x in xs: d[key(x)] = step(d.get(key(x)), x)` -/
def accumulate (key : β → κ) (step : Option α → β → α) (xs : List β) : Dict κ α :=
  xs.foldl (fun d x => d.set (key x) (step (d.get? (key x)) x)) empty

theorem accumulate_concat (key : β → κ) (step : Option α → β → α) (xs : List β) (x : β) :
    accumulate key step (xs ++ [x]) =
      (accumulate key step xs).set (key x) (step ((accumulate key step xs).get? (key x)) x) := by
  simp [accumulate, foldl_append]

/-- **The value of a key** is that of the same loop over the items with this key. -/
theorem get?_accumulate (key : β → κ) (step : Option α → β → α) (xs : List β) (k : κ) :
    (accumulate key step xs).get? k =
      (xs.filter fun x => key x = k).foldl (fun a x => some (step a x)) none := by
  induction xs using reverseRecOn with
  | nil => rfl
  | append_singleton xs x ih =>
    rw [accumulate_concat, get?_set, filter_append, foldl_append]
    by_cases hk : k = key x
    · subst hk
      simp [ih]
    · simp [ih, hk, Ne.symm hk]

theorem get?_foldl_update {ks : List κ} (h : ks.Nodup) (step : Option α → κ → α) (d : Dict κ α) (k : κ) :
    (ks.foldl (fun d l => d.set l (step (d.get? l) l)) d).get? k =
      if k ∈ ks then some (step (d.get? k) k) else d.get? k := by
  induction ks generalizing d with
  | nil => simp
  | cons l ks ih =>
    obtain ⟨hl, hks⟩ := nodup_cons.mp h
    rw [foldl_cons, ih hks]
    by_cases hk : k = l
    · subst hk
      rw [if_neg hl, if_pos mem_cons_self, get?_set, if_pos rfl]
    · rw [get?_set, if_neg hk]
      simp only [mem_cons, hk, false_or]

/-- The values of the items with each key, in their order. -/
def groupBy (key : β → κ) (value : β → α) (xs : List β) : Dict κ (List α) :=
  accumulate key (fun group x => group.getD [] ++ [value x]) xs

theorem flatten_values_set_perm (d : Dict κ (List α)) (k : κ) (a : α) :
    (d.set k ((d.get? k).getD [] ++ [a])).values.flatten.Perm (d.values.flatten ++ [a]) := by
  simp only [get?, values, set]
  cases hfind : find Prod.fst d.items k with
  | none =>
    simp [upsert, hfind]
  | some old =>
    -- the item of the key is in the middle
    obtain ⟨before, after, hitems, hset⟩ := upsert_eq_of_find
      (fun item => (item.1, old.2 ++ [a])) (k, old.2 ++ [a]) d.keyed hfind
    simp only [map_some, getD_some]
    rw [hset, hitems]
    simp only [map_append, map_cons, flatten_append, flatten_cons, append_assoc]
    exact (perm_append_comm.append_left _).append_left _

/-- **The groups** together are all values. -/
theorem flatten_groupBy_perm (key : β → κ) (value : β → α) (xs : List β) :
    (groupBy key value xs).values.flatten.Perm (xs.map value) := by
  induction xs using reverseRecOn with
  | nil => rfl
  | append_singleton xs x ih =>
    rw [groupBy, accumulate_concat, map_append]
    exact (flatten_values_set_perm _ _ _).trans (ih.append_right _)

/-- How many items have each key. -/
def countBy (key : β → κ) (xs : List β) : Dict κ ℕ := accumulate key (fun n _ => n.getD 0 + 1) xs

theorem foldl_count (xs : List β) :
    xs.foldl (fun (n : Option ℕ) (_ : β) => some (n.getD 0 + 1)) none =
      if xs = [] then none else some xs.length := by
  induction xs using reverseRecOn with
  | nil => rfl
  | append_singleton xs x ih =>
    rw [foldl_append, ih]
    by_cases hxs : xs = [] <;> simp [hxs]

theorem getD_get?_countBy (key : β → κ) (xs : List β) (k : κ) :
    ((countBy key xs).get? k).getD 0 = xs.countP fun x => key x = k := by
  rw [countBy, get?_accumulate, foldl_count, countP_eq_length_filter]
  split
  · rename_i hnil
    rw [hnil]
    rfl
  · rfl

theorem mem_keys_accumulate (key : β → κ) (step : Option α → β → α) (xs : List β) (k : κ) :
    k ∈ (accumulate key step xs).keys ↔ ∃ x ∈ xs, key x = k := by
  induction xs using reverseRecOn with
  | nil => simp [accumulate, empty, keys]
  | append_singleton xs x ih =>
    rw [accumulate_concat, mem_keys_iff, get?_set]
    by_cases hk : k = key x
    · simp [hk]
    · rw [if_neg hk, ← mem_keys_iff, ih]
      simp [Ne.symm hk]

theorem get?_groupBy (key : β → κ) (value : β → α) (xs : List β) (k : κ) :
    (groupBy key value xs).get? k =
      if (xs.filter fun x => key x = k) = [] then none else some ((xs.filter fun x => key x = k).map value) := by
  rw [groupBy, get?_accumulate]
  induction xs.filter (fun x => key x = k) using reverseRecOn with
  | nil => rfl
  | append_singleton ys y ih =>
    rw [foldl_append, ih]
    by_cases hys : ys = [] <;> simp [hys]

theorem keys_accumulate_prefix (key : β → κ) (step : Option α → β → α) (xs ys : List β) :
    (accumulate key step xs).keys <+: (accumulate key step (xs ++ ys)).keys := by
  induction ys using reverseRecOn with
  | nil => simp
  | append_singleton ys y ih =>
    rw [← append_assoc, accumulate_concat]
    by_cases hkey : key y ∈ (accumulate key step (xs ++ ys)).keys
    · rwa [keys_set_of_mem hkey]
    · rw [keys_set_of_not_mem hkey]
      exact ih.trans (prefix_append _ _)

theorem keys_groupBy_cons_cons (key : β → κ) (value : β → α) {x y : β} (hne : key y ≠ key x) (xs : List β) :
    ∃ ks, (groupBy key value (x :: y :: xs)).keys = key x :: key y :: ks := by
  obtain ⟨ks, hks⟩ := keys_accumulate_prefix key (fun group x => getD group [] ++ [value x]) [x, y] xs
  have hfirst : (accumulate key (fun group x => getD group [] ++ [value x]) [x]).keys = [key x] :=
    keys_set_of_not_mem (d := empty) not_mem_nil _
  have hboth : (accumulate key (fun group x => getD group [] ++ [value x]) [x, y]).keys = [key x, key y] := by
    rw [show [x, y] = [x] ++ [y] from rfl, accumulate_concat, keys_set_of_not_mem, hfirst]
    · rfl
    · rw [hfirst, mem_singleton]
      exact hne
  rw [hboth] at hks
  exact ⟨ks, hks.symm⟩

theorem values_eq_filterMap (d : Dict κ α) : d.values = d.keys.filterMap d.get? := by
  unfold values keys
  rw [filterMap_map, ← filterMap_eq_map]
  apply filterMap_congr
  intro item hitem
  exact (get?_eq_some_iff.mpr hitem).symm

theorem values_groupBy_of_key {key : β → κ} {xs : List β} (hne : xs ≠ []) (hkey : ∀ x ∈ xs, key x = k) (value : β → α) :
    (groupBy key value xs).values = [xs.map value] := by
  have hfilter : (xs.filter fun x => key x = k) = xs := filter_eq_self.mpr fun x hx => by simpa using hkey x hx
  have hkeys : (groupBy key value xs).keys = [k] := by
    obtain ⟨x, rest, rfl⟩ := exists_cons_of_ne_nil hne
    obtain ⟨others, hothers⟩ := keys_accumulate_prefix key (fun group x => getD group [] ++ [value x]) [x] rest
    have hfirst : key x = k := hkey x mem_cons_self
    have hall : ∀ l ∈ (groupBy key value (x :: rest)).keys, l = k := by
      intro l hl
      obtain ⟨y, hy, rfl⟩ := (mem_keys_accumulate _ _ _ _).mp hl
      exact hkey y hy
    have hnodup := keys_nodup (groupBy key value (x :: rest))
    have heq : (groupBy key value (x :: rest)).keys = key x :: others := hothers.symm
    rw [heq] at hall hnodup ⊢
    cases others with
    | nil => rw [hfirst]
    | cons l others =>
      have hl := hall l (.tail _ (.head _))
      rw [hl, hfirst] at hnodup
      simp at hnodup
  have hgroup : (groupBy key value xs).get? k = some (xs.map value) := by
    rw [get?_groupBy, hfilter, if_neg hne]
  rw [values_eq_filterMap, hkeys, filterMap_cons_some hgroup, filterMap_nil]

/-! ## Defaults -/

/-- `for key, value in items: if key not in d: d[key] = default(key, value)` -/
theorem get?_foldl_setDefault (default : κ × β → α) (items : List (κ × β)) (d : Dict κ α) (k : κ) :
    (items.foldl (fun d item => if item.1 ∈ d.keys then d else d.set item.1 (default item)) d).get? k =
      (d.get? k).or ((find Prod.fst items k).map default) := by
  induction items generalizing d with
  | nil => simp [find]
  | cons item items ih =>
    rw [foldl_cons, ih, find, find, find?_cons]
    by_cases hk : item.1 = k
    · rw [decide_eq_true hk]
      subst hk
      by_cases hmem : item.1 ∈ d.keys
      · -- the key has its value already
        obtain ⟨a, ha⟩ := mem_keys_iff.mp hmem
        rw [if_pos hmem, ha]
        rfl
      · rw [if_neg hmem, not_mem_keys_iff.mp hmem, get?_set_self]
        rfl
    · rw [decide_eq_false hk]
      split
      · rfl
      · rw [get?_set_of_ne _ _ (Ne.symm hk)]

theorem foldl_setDefault_of_mem (default : κ × β → α) {items : List (κ × β)} (h : ∀ item ∈ items, item.1 ∈ d.keys) :
    items.foldl (fun d item => if item.1 ∈ d.keys then d else d.set item.1 (default item)) d = d := by
  induction items with
  | nil => rfl
  | cons item items ih =>
    rw [foldl_cons, if_pos (h item mem_cons_self)]
    exact ih fun other hother => h other (mem_cons_of_mem _ hother)

/-! ## Dictionaries of dictionaries -/

variable {κ' : Type} [DecidableEq κ']

/-- `d.get(key, {}).get(key')` -/
def getIn (d : Dict κ (Dict κ' α)) (k : κ) (k' : κ') : Option α := (d.get? k).bind fun e => e.get? k'

/-- `d.setdefault(key, {})[key'] = value` -/
def setIn (d : Dict κ (Dict κ' α)) (k : κ) (k' : κ') (a : α) : Dict κ (Dict κ' α) :=
  d.set k (((d.get? k).getD empty).set k' a)

/-- `d.get(key, {}).pop(key', None)` -/
def eraseIn (d : Dict κ (Dict κ' α)) (k : κ) (k' : κ') : Dict κ (Dict κ' α) :=
  match d.get? k with
  | some e => d.set k (e.erase k')
  | none => d

theorem getIn_setIn (d : Dict κ (Dict κ' α)) (k l : κ) (k' l' : κ') (a : α) :
    (d.setIn k k' a).getIn l l' = if l = k ∧ l' = k' then some a else d.getIn l l' := by
  unfold getIn setIn
  rw [get?_set]
  by_cases h : l = k
  · subst h
    rw [if_pos rfl, bind_some, get?_set]
    cases hd : d.get? l <;> simp
  · simp [h]

theorem getIn_setIn_getD (d : Option (Dict κ (Dict κ' α))) (k l : κ) (k' l' : κ') (a : α) :
    ((d.getD empty).setIn k k' a).getIn l l' =
      if l = k ∧ l' = k' then some a else d.bind fun d => d.getIn l l' := by
  rw [getIn_setIn]
  cases d <;> rfl

theorem getIn_eraseIn (d : Dict κ (Dict κ' α)) (k l : κ) (k' l' : κ') :
    (d.eraseIn k k').getIn l l' = if l = k ∧ l' = k' then none else d.getIn l l' := by
  unfold getIn eraseIn
  by_cases h : l = k
  · subst h
    cases hd : d.get? l with
    | none => simp [hd]
    | some e => simp [get?_erase]
  · cases hd : d.get? k with
    | none => simp [h]
    | some e => simp [get?_set_of_ne _ _ h, h]

theorem getIn_set_empty (d : Dict κ (Dict κ' α)) (k l : κ) (l' : κ') :
    (d.set k empty).getIn l l' = if l = k then none else d.getIn l l' := by
  unfold getIn
  rw [get?_set]
  split <;> rfl

end Dict
