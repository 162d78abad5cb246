import Mathlib.Data.List.Pairwise

/-!
# Keyed tables

A table is a list of rows in the order of their insertion, with a key on the rows. An insertion or
an upsert keeps keys distinct: an upsert changes the row of its key in place, or appends a new row.

## Main results

* `Table.find_eq_some_iff`: in a keyed table the row of a key is the row that has it
* `Table.mem_upsert`, `Table.find_upsert`: the rows after an upsert
* `Table.upsert_eq_of_find`: an upsert of a key that is there
* `Table.filter_upsert`: an upsert leaves a selection alone that its key is not in
* `Table.Keyed.upsert`, `Table.Keyed.insertOrIgnore`: keys stay distinct
-/

namespace Table

open List

variable {ρ κ : Type} {key : ρ → κ} {t : List ρ} {row r : ρ}

/-- No two rows have the same key. -/
def Keyed (key : ρ → κ) (t : List ρ) : Prop := t.Pairwise fun a b => key a ≠ key b

theorem keyed_nil : Keyed key [] := List.Pairwise.nil

theorem Keyed.eq (h : Keyed key t) {a b : ρ} (ha : a ∈ t) (hb : b ∈ t) (hkey : key a = key b) :
    a = b := by
  by_contra hne
  have : Std.Symm fun a b : ρ => key a ≠ key b := ⟨fun _ _ hab => hab.symm⟩
  exact h.forall ha hb hne hkey

theorem Keyed.filter (h : Keyed key t) (p : ρ → Bool) : Keyed key (t.filter p) :=
  List.Pairwise.filter p h

theorem Keyed.append (h : Keyed key t) (hnew : ∀ r ∈ t, key r ≠ key row) :
    Keyed key (t ++ [row]) :=
  pairwise_append.mpr ⟨h, pairwise_singleton _ _, fun a ha b hb => by
    rw [mem_singleton.mp hb]
    exact hnew a ha⟩

theorem Keyed.perm {t' : List ρ} (h : Keyed key t) (hperm : t'.Perm t) : Keyed key t' :=
  (hperm.pairwise_iff Ne.symm).mpr h

variable [DecidableEq κ]

def find (key : ρ → κ) (t : List ρ) (k : κ) : Option ρ := t.find? fun r => key r = k

theorem mem_of_find {k : κ} (h : find key t k = some r) : r ∈ t ∧ key r = k :=
  ⟨mem_of_find?_eq_some h, by simpa using find?_some h⟩

theorem find_eq_none {k : κ} : find key t k = none ↔ ∀ r ∈ t, key r ≠ k :=
  find?_eq_none.trans (forall₂_congr fun _ _ => not_congr decide_eq_true_iff)

/-- In a keyed table the row of a key is the row that has it. -/
theorem find_eq_some_iff (h : Keyed key t) {k : κ} :
    find key t k = some r ↔ r ∈ t ∧ key r = k := by
  refine ⟨mem_of_find, fun ⟨hr, hk⟩ => ?_⟩
  cases hfind : find key t k with
  | none => exact absurd hk (find_eq_none.mp hfind r hr)
  | some r' =>
    obtain ⟨hr', hk'⟩ := mem_of_find hfind
    rw [h.eq hr' hr (hk'.trans hk.symm)]

def insertOrIgnore (key : ρ → κ) (row : ρ) (t : List ρ) : List ρ :=
  if find key t (key row) = none then t ++ [row] else t

def upsert (key : ρ → κ) (merge : ρ → ρ) (row : ρ) (t : List ρ) : List ρ :=
  if find key t (key row) = none then t ++ [row]
  else t.map fun r => if key r = key row then merge r else r

theorem mem_insertOrIgnore_of_mem (h : r ∈ t) : r ∈ insertOrIgnore key row t := by
  unfold insertOrIgnore
  split
  · exact mem_append_left _ h
  · exact h

theorem exists_mem_insertOrIgnore (key : ρ → κ) (row : ρ) (t : List ρ) :
    ∃ r ∈ insertOrIgnore key row t, key r = key row := by
  unfold insertOrIgnore
  split
  · exact ⟨row, mem_append_right _ (mem_singleton_self _), rfl⟩
  · rename_i hfind
    obtain ⟨r, hr⟩ := Option.ne_none_iff_exists'.mp hfind
    exact ⟨r, mem_of_find hr⟩

theorem Keyed.insertOrIgnore (h : Keyed key t) : Keyed key (insertOrIgnore key row t) := by
  unfold Table.insertOrIgnore
  split
  · rename_i hfind
    exact h.append (find_eq_none.mp hfind)
  · exact h

variable {merge : ρ → ρ}

/-- A row after an upsert is one of another key, the new row, or the changed row of its key. -/
theorem mem_upsert (h : r ∈ upsert key merge row t) :
    r ∈ t ∧ key r ≠ key row ∨ r = row ∨ ∃ old ∈ t, key old = key row ∧ r = merge old := by
  unfold upsert at h
  split at h
  · rename_i hfind
    rcases mem_append.mp h with h | h
    · exact .inl ⟨h, find_eq_none.mp hfind r h⟩
    · exact .inr (.inl (mem_singleton.mp h))
  · obtain ⟨old, hold, rfl⟩ := mem_map.mp h
    split
    · rename_i hkey
      exact .inr (.inr ⟨old, hold, hkey, rfl⟩)
    · rename_i hkey
      exact .inl ⟨hold, hkey⟩

theorem mem_upsert_of_ne (h : r ∈ t) (hkey : key r ≠ key row) : r ∈ upsert key merge row t := by
  unfold upsert
  split
  · exact mem_append_left _ h
  · exact mem_map.mpr ⟨r, h, if_neg hkey⟩

theorem exists_mem_upsert (key : ρ → κ) (merge : ρ → ρ) (hmerge : ∀ r, key (merge r) = key r)
    (row : ρ) (t : List ρ) :
    ∃ r ∈ upsert key merge row t, key r = key row ∧ (r = row ∨ ∃ old, r = merge old) := by
  unfold upsert
  split
  · exact ⟨row, mem_append_right _ (mem_singleton_self _), rfl, .inl rfl⟩
  · rename_i hfind
    obtain ⟨old, hold⟩ := Option.ne_none_iff_exists'.mp hfind
    obtain ⟨hmem, hkey⟩ := mem_of_find hold
    exact ⟨merge old, mem_map.mpr ⟨old, hmem, if_pos hkey⟩, (hmerge old).trans hkey,
      .inr ⟨old, rfl⟩⟩

theorem upsert_eq_of_find (merge : ρ → ρ) (row : ρ) (hkeyed : Keyed key t) {old : ρ}
    (h : find key t (key row) = some old) :
    ∃ before after, t = before ++ old :: after ∧ upsert key merge row t = before ++ merge old :: after := by
  obtain ⟨hmem, hkey⟩ := mem_of_find h
  obtain ⟨before, after, rfl⟩ := append_of_mem hmem
  obtain ⟨-, hafter, hbefore⟩ := pairwise_append.mp hkeyed
  refine ⟨before, after, rfl, ?_⟩
  rw [upsert, h, if_neg (Option.some_ne_none old), map_append, map_cons, if_pos hkey]
  -- the other rows have other keys
  have hother : ∀ rows : List ρ, (∀ r ∈ rows, key r ≠ key row) →
      (rows.map fun r => if key r = key row then merge r else r) = rows := by
    intro rows hrows
    refine (map_congr_left fun r hr => ?_).trans (map_id rows)
    rw [if_neg (hrows r hr), id]
  rw [hother before fun r hr => hkey ▸ hbefore r hr old mem_cons_self,
    hother after fun r hr => hkey ▸ Ne.symm ((pairwise_cons.mp hafter).1 r hr)]

/-- An upsert leaves a selection alone that does not select its key. -/
theorem filter_upsert {p : ρ → Bool} (hmerge : ∀ r, key (merge r) = key r) (hp : ∀ r, key r = key row → p r = false) :
    (upsert key merge row t).filter p = t.filter p := by
  unfold upsert
  split
  · rw [filter_append, filter_cons_of_neg (by simp [hp row rfl])]
    simp
  · -- the rows of the key are in neither selection
    have hkey : (p ∘ fun r => if key r = key row then merge r else r) = p := by
      funext r
      simp only [Function.comp_apply]
      split
      · rename_i hr
        rw [hp r hr, hp _ ((hmerge r).trans hr)]
      · rfl
    rw [filter_map, hkey]
    refine (map_congr_left fun r hr => ?_).trans (map_id _)
    have hsel := (mem_filter.mp hr).2
    have hne : key r ≠ key row := fun hr => by simp [hp r hr] at hsel
    exact if_neg hne

theorem find_perm {t' : List ρ} (h : Keyed key t) (hperm : t'.Perm t) (k : κ) :
    find key t' k = find key t k := by
  ext r
  rw [find_eq_some_iff (h.perm hperm), find_eq_some_iff h, hperm.mem_iff]

theorem find_concat (t : List ρ) (row : ρ) (k : κ) :
    find key (t ++ [row]) k = (find key t k).or (if key row = k then some row else none) := by
  unfold find
  rw [find?_append, find?_singleton]
  simp only [decide_eq_true_eq]

theorem find_upsert (hmerge : ∀ r, key (merge r) = key r) (row : ρ) (t : List ρ) (k : κ) :
    find key (upsert key merge row t) k =
      if k = key row then some ((find key t k).elim row merge) else find key t k := by
  unfold upsert
  split
  · rename_i hnone
    rw [find_concat]
    by_cases hk : k = key row
    · subst hk
      rw [hnone, if_pos rfl, if_pos rfl]
      rfl
    · rw [if_neg (Ne.symm hk), if_neg hk, Option.or_none]
  · rename_i hsome
    -- the rows keep their keys
    have hkeys : ∀ r, key (if key r = key row then merge r else r) = key r := by
      intro r
      split
      · exact hmerge r
      · rfl
    have hfind : find key (t.map fun r => if key r = key row then merge r else r) k =
        (find key t k).map fun r => if key r = key row then merge r else r := by
      unfold find
      rw [find?_map]
      congr 2
      funext r
      simp only [Function.comp_apply, hkeys]
    rw [hfind]
    by_cases hk : k = key row
    · subst hk
      obtain ⟨r, hr⟩ := Option.ne_none_iff_exists'.mp hsome
      rw [if_pos rfl, hr]
      simp [(mem_of_find hr).2]
    · rw [if_neg hk]
      cases hr : find key t k with
      | none => rfl
      | some r =>
        have hne : key r ≠ key row := by
          rw [(mem_of_find hr).2]
          exact hk
        rw [Option.map_some, if_neg hne]

theorem Keyed.upsert (h : Keyed key t) (hmerge : ∀ r, key (merge r) = key r) : Keyed key (upsert key merge row t) := by
  unfold Table.upsert
  split
  · rename_i hfind
    exact h.append (find_eq_none.mp hfind)
  · refine pairwise_map.mpr (h.imp fun {a b} hab => ?_)
    have hkey : ∀ r, key (if key r = key row then merge r else r) = key r := fun r => by
      split
      · exact hmerge r
      · rfl
    rwa [hkey, hkey]

end Table
