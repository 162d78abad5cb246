import Mathlib.Data.List.Count
import Mathlib.Logic.Relation
import Mathlib.Tactic.Linarith
import ZapTrace.Library.Dict

/-!
# Union-find

Classes of keys, each with a representative. Every key names a parent, and a representative is its own parent;
to find the representative of a key, the parents are followed, and every key on the way is linked to its
grandparent. To merge two classes, one representative is linked to the other. There are no ranks: what is kept
is that the links are without cycles, and that a key and its parent have the same representative.

## Main results

* `UnionFind.Represents.find`: a search finds the representative and changes none
* `UnionFind.Represents.union`: a union merges two classes
* `foldl_merge_eq_iff`: after any unions, keys have the same representative when the unions connect them
-/

namespace ZapTrace

open Dict Option List

/-- The parent of each key that was seen. -/
structure UnionFind (κ : Type) where
  parent : Dict κ κ

namespace UnionFind

variable {κ : Type} [DecidableEq κ]

def empty : UnionFind κ := ⟨.empty⟩

/-- A new key is its own parent. -/
def make (uf : UnionFind κ) (x : κ) : UnionFind κ :=
  if x ∈ uf.parent.keys then uf else ⟨uf.parent.set x x⟩

def parentOf (uf : UnionFind κ) (x : κ) : κ := (uf.parent.get? x).getD x

/-- The loop of `find`, for as many rounds as there are keys at most. -/
def findLoop : ℕ → UnionFind κ → κ → κ × UnionFind κ
  | 0, uf, x => (x, uf)
  | fuel + 1, uf, x =>
    if uf.parentOf x = x then (x, uf)
    else findLoop fuel ⟨uf.parent.set x (uf.parentOf (uf.parentOf x))⟩ (uf.parentOf (uf.parentOf x))

def find (uf : UnionFind κ) (x : κ) : κ × UnionFind κ := findLoop (uf.make x).parent.keys.length (uf.make x) x

/-- Two classes become one. -/
def union (uf : UnionFind κ) (x y : κ) : UnionFind κ :=
  let (rx, uf) := ((uf.make x).make y).find x
  let (ry, uf) := uf.find y
  if rx = ry then uf else ⟨uf.parent.set ry rx⟩

/-- The keys of each class, by its representative. -/
def groups (uf : UnionFind κ) : Dict κ (List κ) × UnionFind κ :=
  uf.parent.keys.foldl (fun (grps, uf) k =>
    let (r, uf) := uf.find k
    (grps.set r ((grps.get? r).getD [] ++ [k]), uf)) (.empty, uf)

/-! ## What the table represents -/

/-- The links are without cycles and lead from each key to its representative. A key that was not seen
represents itself. -/
structure Represents (uf : UnionFind κ) (rep : κ → κ) : Prop where
  acyclic : ∃ rank : κ → ℕ, ∀ k p, uf.parent.get? k = some p → p ≠ k → rank p < rank k
  parent : ∀ k p, uf.parent.get? k = some p → rep p = rep k
  root : ∀ k, uf.parent.get? k = some k → rep k = k
  root_rep : ∀ k, k ∈ uf.parent.keys → uf.parent.get? (rep k) = some (rep k)
  unseen : ∀ k, k ∉ uf.parent.keys → rep k = k

variable {uf : UnionFind κ} {rep : κ → κ}

theorem represents_empty : (empty : UnionFind κ).Represents id where
  acyclic := ⟨fun _ => 0, fun _ _ h => by cases h⟩
  parent _ _ h := by cases h
  root _ h := by cases h
  root_rep _ h := by cases h
  unseen _ _ := rfl

namespace Represents

theorem rep_rep (h : uf.Represents rep) (k : κ) : rep (rep k) = rep k := by
  by_cases hk : k ∈ uf.parent.keys
  · exact h.root _ (h.root_rep k hk)
  · rw [h.unseen k hk, h.unseen k hk]

theorem parent_mem (h : uf.Represents rep) {k p : κ} (hp : uf.parent.get? k = some p) : p ∈ uf.parent.keys := by
  by_contra hnot
  -- a parent that was not seen would be the representative, which was
  have hrep := h.root_rep k (mem_keys_iff.mpr ⟨p, hp⟩)
  rw [← h.parent k p hp, h.unseen p hnot] at hrep
  exact hnot (mem_keys_iff.mpr ⟨p, hrep⟩)

theorem make (h : uf.Represents rep) (x : κ) : (uf.make x).Represents rep := by
  unfold UnionFind.make
  split
  · exact h
  · rename_i hx
    obtain ⟨rank, hrank⟩ := h.acyclic
    refine ⟨⟨rank, ?_⟩, ?_, ?_, ?_, ?_⟩
    · intro k p hp hne
      rw [get?_set] at hp
      split at hp
      · rename_i hk
        exact absurd (some.inj hp).symm (hk ▸ hne)
      · exact hrank k p hp hne
    · intro k p hp
      rw [get?_set] at hp
      split at hp
      · rename_i hk
        rw [hk, ← some.inj hp]
      · exact h.parent k p hp
    · intro k hk
      rw [get?_set] at hk
      split at hk
      · rename_i hkx
        exact hkx ▸ h.unseen x hx
      · exact h.root k hk
    · intro k hk
      rw [get?_set]
      by_cases hkx : k = x
      · rw [hkx, h.unseen x hx, if_pos rfl]
      · have hmem : k ∈ uf.parent.keys := by
          obtain ⟨p, hp⟩ := mem_keys_iff.mp hk
          rw [get?_set, if_neg hkx] at hp
          exact mem_keys_iff.mpr ⟨p, hp⟩
        have hroot := h.root_rep k hmem
        have hne : rep k ≠ x := fun heq => hx (heq ▸ mem_keys_iff.mpr ⟨_, hroot⟩)
        rw [if_neg hne, hroot]
    · intro k hk
      refine h.unseen k fun hmem => hk ?_
      obtain ⟨p, hp⟩ := mem_keys_iff.mp hmem
      rw [mem_keys_iff, get?_set]
      split
      · exact ⟨x, rfl⟩
      · exact ⟨p, hp⟩

end Represents

theorem mem_keys_make {x k : κ} : k ∈ (uf.make x).parent.keys ↔ k = x ∨ k ∈ uf.parent.keys := by
  unfold UnionFind.make
  split
  · rename_i hx
    exact ⟨Or.inr, fun h => h.elim (fun heq => heq ▸ hx) id⟩
  · rw [mem_keys_iff, get?_set]
    by_cases hk : k = x
    · simp [hk]
    · simp [hk, mem_keys_iff]

/-! ## Finding -/

namespace Represents

variable {x : κ}

theorem parentOf_eq_self_iff (h : uf.Represents rep) (hx : x ∈ uf.parent.keys) : uf.parentOf x = x ↔ rep x = x := by
  obtain ⟨p, hp⟩ := mem_keys_iff.mp hx
  have hparent : uf.parentOf x = p := by rw [parentOf, hp, getD_some]
  rw [hparent]
  constructor
  · rintro rfl
    exact h.root p hp
  · intro hrep
    have hroot := h.root_rep x hx
    rw [hrep, hp] at hroot
    exact some.inj hroot

/-- Linking a key to its grandparent keeps the representatives. -/
theorem halve (h : uf.Represents rep) (hx : x ∈ uf.parent.keys) (hne : uf.parentOf x ≠ x) :
    (⟨uf.parent.set x (uf.parentOf (uf.parentOf x))⟩ : UnionFind κ).Represents rep := by
  obtain ⟨p, hp⟩ := mem_keys_iff.mp hx
  obtain ⟨g, hg⟩ := mem_keys_iff.mp (h.parent_mem hp)
  have hparent : uf.parentOf x = p := by rw [parentOf, hp, getD_some]
  have hgrand : uf.parentOf p = g := by rw [parentOf, hg, getD_some]
  rw [hparent] at hne
  rw [hparent, hgrand]
  have hrep : rep g = rep x := (h.parent p g hg).trans (h.parent x p hp)
  obtain ⟨rank, hrank⟩ := h.acyclic
  have hlt : rank g < rank x := by
    have hpx := hrank x p hp hne
    by_cases hgp : g = p
    · exact hgp ▸ hpx
    · exact (hrank p g hg hgp).trans hpx
  have hgx : g ≠ x := fun heq => absurd hlt (heq ▸ lt_irrefl _)
  have hkeys : ∀ k, k ∈ (uf.parent.set x g).keys ↔ k ∈ uf.parent.keys := by
    intro k
    rw [keys_set_of_mem hx]
  refine ⟨⟨rank, ?_⟩, ?_, ?_, ?_, ?_⟩
  · intro k q hq hqk
    rw [get?_set] at hq
    split at hq
    · rename_i hk
      rw [hk, ← some.inj hq]
      exact hlt
    · exact hrank k q hq hqk
  · intro k q hq
    rw [get?_set] at hq
    split at hq
    · rename_i hk
      rw [hk, ← some.inj hq, hrep]
    · exact h.parent k q hq
  · intro k hk
    rw [get?_set] at hk
    split at hk
    · rename_i hkx
      exact absurd (hkx ▸ some.inj hk) hgx
    · exact h.root k hk
  · intro k hk
    have hroot := h.root_rep k ((hkeys k).mp hk)
    -- the key is not a representative, so the link of the representative is as it was
    have hne' : rep k ≠ x := by
      intro heq
      rw [heq, hp] at hroot
      exact hne (some.inj hroot)
    rw [get?_set, if_neg hne', hroot]
  · intro k hk
    exact h.unseen k fun hmem => hk ((hkeys k).mpr hmem)

/-- In a table with ranks, at most as many keys as the rank of a key are on the way to its representative. -/
theorem findLoop_eq {fuel : ℕ} (h : uf.Represents rep) (hx : x ∈ uf.parent.keys) {rank : κ → ℕ}
    (hrank : ∀ k p, uf.parent.get? k = some p → p ≠ k → rank p < rank k) (hfuel : rank x < fuel) :
    (findLoop fuel uf x).1 = rep x ∧ (findLoop fuel uf x).2.Represents rep ∧
      (findLoop fuel uf x).2.parent.keys = uf.parent.keys := by
  induction fuel generalizing uf x with
  | zero => cases hfuel
  | succ fuel ih =>
    unfold findLoop
    split
    · rename_i hroot
      exact ⟨((h.parentOf_eq_self_iff hx).mp hroot).symm, h, rfl⟩
    · rename_i hne
      obtain ⟨p, hp⟩ := mem_keys_iff.mp hx
      obtain ⟨g, hg⟩ := mem_keys_iff.mp (h.parent_mem hp)
      have hparent : uf.parentOf x = p := by rw [parentOf, hp, getD_some]
      have hgrand : uf.parentOf p = g := by rw [parentOf, hg, getD_some]
      have hhalved := h.halve hx hne
      rw [hparent, hgrand] at hhalved ⊢
      rw [hparent] at hne
      have hlt : rank g < rank x := by
        have hpx := hrank x p hp hne
        by_cases hgp : g = p
        · exact hgp ▸ hpx
        · exact (hrank p g hg hgp).trans hpx
      have hkeys : (uf.parent.set x g).keys = uf.parent.keys := keys_set_of_mem hx g
      have hgmem : g ∈ (uf.parent.set x g).keys := hkeys ▸ h.parent_mem hg
      obtain ⟨hfound, hrepresents, hsame⟩ := ih hhalved hgmem (by
        intro k q hq hqk
        rw [get?_set] at hq
        split at hq
        · rename_i hk
          rw [hk, ← some.inj hq]
          exact hlt
        · exact hrank k q hq hqk) (lt_of_lt_of_le hlt (Nat.lt_succ_iff.mp hfuel))
      refine ⟨?_, hrepresents, hsame.trans hkeys⟩
      rw [hfound, h.parent p g hg, h.parent x p hp]

/-- Keys can be ranked by how many are below, so that there are fewer ranks than keys. -/
theorem exists_rank_lt (h : uf.Represents rep) :
    ∃ rank : κ → ℕ, (∀ k p, uf.parent.get? k = some p → p ≠ k → rank p < rank k) ∧
      ∀ k ∈ uf.parent.keys, rank k < uf.parent.keys.length := by
  obtain ⟨rank, hrank⟩ := h.acyclic
  refine ⟨fun k => uf.parent.keys.countP fun l => rank l < rank k, ?_, ?_⟩
  · intro k p hp hne
    have hlt := hrank k p hp hne
    have hmem := h.parent_mem hp
    obtain ⟨before, after, hkeys⟩ := append_of_mem hmem
    -- the parent is below the key, and not below itself
    have himp : ∀ l : κ, decide (rank l < rank p) = true → decide (rank l < rank k) = true := by
      intro l hl
      exact decide_eq_true ((of_decide_eq_true hl).trans hlt)
    have hbefore := countP_mono_left fun l (_ : l ∈ before) => himp l
    have hafter := countP_mono_left fun l (_ : l ∈ after) => himp l
    simp only [hkeys, countP_append, countP_cons, lt_irrefl, hlt, decide_true, decide_false, if_true]
    simp only [Bool.false_eq_true, if_false]
    omega
  · intro k hk
    rw [countP_lt_length_iff]
    exact ⟨k, hk, by simp⟩

theorem find (h : uf.Represents rep) (x : κ) :
    (uf.find x).1 = rep x ∧ (uf.find x).2.Represents rep ∧
      ∀ k, k ∈ (uf.find x).2.parent.keys ↔ k = x ∨ k ∈ uf.parent.keys := by
  have hmake := h.make x
  obtain ⟨rank, hrank, hlt⟩ := hmake.exists_rank_lt
  have hx : x ∈ (uf.make x).parent.keys := mem_keys_make.mpr (Or.inl rfl)
  obtain ⟨hfound, hrepresents, hkeys⟩ := hmake.findLoop_eq hx hrank (hlt x hx)
  refine ⟨hfound, hrepresents, fun k => ?_⟩
  unfold UnionFind.find
  rw [hkeys, mem_keys_make]

end Represents

/-! ## Merging -/

/-- The representatives after the class of `y` was linked to that of `x`. -/
def merge (rep : κ → κ) (x y : κ) : κ → κ := fun k => if rep k = rep y then rep x else rep k

theorem merge_of_eq {x y : κ} (h : rep x = rep y) : merge rep x y = rep := by
  funext k
  unfold merge
  split
  · rename_i hk
    rw [h, hk]
  · rfl

/-- Linking one representative to another merges their classes. -/
theorem Represents.link (h : uf.Represents rep) {x y : κ} (hx : x ∈ uf.parent.keys) (hy : y ∈ uf.parent.keys)
    (hne : rep x ≠ rep y) : (⟨uf.parent.set (rep y) (rep x)⟩ : UnionFind κ).Represents (merge rep x y) := by
  obtain ⟨rank, hrank⟩ := h.acyclic
  have hrx := h.root_rep x hx
  have hry := h.root_rep y hy
  have hmem : rep y ∈ uf.parent.keys := mem_keys_iff.mpr ⟨_, hry⟩
  have hkeys : ∀ k, k ∈ (uf.parent.set (rep y) (rep x)).keys ↔ k ∈ uf.parent.keys := by
    intro k
    rw [keys_set_of_mem hmem]
  refine ⟨⟨fun k => if rep k = rep y then rank k + rank (rep x) + 1 else rank k, ?_⟩, ?_, ?_, ?_, ?_⟩
  · intro k p hp hpk
    rw [get?_set] at hp
    split at hp
    · -- the old representative is above the new one
      rename_i hk
      rw [hk, ← some.inj hp]
      simp only [h.rep_rep, if_neg hne, if_true]
      omega
    · have hsame := h.parent k p hp
      have hlt := hrank k p hp hpk
      simp only [hsame]
      split <;> omega
  · intro k p hp
    rw [get?_set] at hp
    split at hp
    · rename_i hk
      rw [hk, ← some.inj hp]
      simp only [merge, h.rep_rep, if_neg hne, if_true]
    · simp only [merge, h.parent k p hp]
  · intro k hk
    rw [get?_set] at hk
    split at hk
    · rename_i hky
      exact absurd (some.inj hk) (hky ▸ hne)
    · rename_i hky
      have hroot := h.root k hk
      have hne' : rep k ≠ rep y := fun heq => hky (hroot ▸ heq)
      rw [merge, if_neg hne', hroot]
  · intro k hk
    by_cases hother : rep k = rep y
    · rw [merge, if_pos hother, get?_set, if_neg hne, hrx]
    · rw [merge, if_neg hother, get?_set, if_neg hother, h.root_rep k ((hkeys k).mp hk)]
  · intro k hk
    have hunseen := h.unseen k fun hmem => hk ((hkeys k).mpr hmem)
    have hne' : rep k ≠ rep y := by
      intro heq
      rw [hunseen] at heq
      exact hk ((hkeys k).mpr (heq ▸ hmem))
    rw [merge, if_neg hne', hunseen]

theorem Represents.union (h : uf.Represents rep) (x y : κ) :
    (uf.union x y).Represents (merge rep x y) ∧
      ∀ k, k ∈ (uf.union x y).parent.keys ↔ k = x ∨ k = y ∨ k ∈ uf.parent.keys := by
  obtain ⟨hfx, hrx, hkx⟩ := ((h.make x).make y).find x
  obtain ⟨hfy, hry, hky⟩ := hrx.find y
  have hkeys : ∀ k, k ∈ (((((uf.make x).make y).find x).2).find y).2.parent.keys ↔ k = x ∨ k = y ∨ k ∈ uf.parent.keys := by
    intro k
    rw [hky, hkx, mem_keys_make, mem_keys_make]
    constructor
    · rintro (hy | hx | hy | hx | hk)
      · exact Or.inr (Or.inl hy)
      · exact Or.inl hx
      · exact Or.inr (Or.inl hy)
      · exact Or.inl hx
      · exact Or.inr (Or.inr hk)
    · rintro (hx | hy | hk)
      · exact Or.inr (Or.inl hx)
      · exact Or.inl hy
      · exact Or.inr (Or.inr (Or.inr (Or.inr hk)))
  unfold UnionFind.union
  simp only [hfx, hfy]
  split
  · rename_i hsame
    rw [merge_of_eq hsame]
    exact ⟨hry, hkeys⟩
  · rename_i hne
    have hx := (hkeys x).mpr (Or.inl rfl)
    have hy := (hkeys y).mpr (Or.inr (Or.inl rfl))
    refine ⟨hry.link hx hy hne, fun k => ?_⟩
    rw [keys_set_of_mem (mem_keys_iff.mpr ⟨_, hry.root_rep y hy⟩), hkeys]

/-- Two keys have the same representative after a merge if they had it before, or if the merge is of their
classes. -/
theorem merge_eq_iff {x y a b : κ} :
    merge rep x y a = merge rep x y b ↔
      rep a = rep b ∨ (rep a = rep x ∧ rep b = rep y) ∨ rep a = rep y ∧ rep b = rep x := by
  unfold merge
  split <;> split <;> grind

/-- **The classes** of unions one after the other: keys have the same representative when the unions connect
them. -/
theorem foldl_merge_eq_iff (edges : List (κ × κ)) (a b : κ) :
    (edges.foldl (fun rep edge => merge rep edge.1 edge.2) id) a =
        (edges.foldl (fun rep edge => merge rep edge.1 edge.2) id) b ↔
      Relation.EqvGen (fun a b => (a, b) ∈ edges) a b := by
  induction edges using reverseRecOn generalizing a b with
  | nil =>
    constructor
    · rintro rfl
      exact Relation.EqvGen.refl _
    · intro h
      induction h with
      | rel _ _ h => cases h
      | refl => rfl
      | symm _ _ _ ih => exact ih.symm
      | trans _ _ _ _ _ ih ih' => exact ih.trans ih'
  | append_singleton edges edge ih =>
    rw [foldl_append, foldl_cons, foldl_nil]
    have hmono : ∀ c d, Relation.EqvGen (fun a b => (a, b) ∈ edges) c d →
        Relation.EqvGen (fun a b => (a, b) ∈ edges ++ [edge]) c d :=
      fun c d h => Relation.EqvGen.mono (fun _ _ h => mem_append_left _ h) c d h
    have hedge : Relation.EqvGen (fun a b => (a, b) ∈ edges ++ [edge]) edge.1 edge.2 :=
      Relation.EqvGen.rel _ _ (mem_append_right _ (mem_singleton_self edge))
    constructor
    · intro h
      rcases merge_eq_iff.mp h with hab | ⟨ha, hb⟩ | ⟨ha, hb⟩
      · exact hmono a b ((ih a b).mp hab)
      · exact ((hmono _ _ ((ih _ _).mp ha)).trans _ _ _ hedge).trans _ _ _ (hmono _ _ ((ih _ _).mp hb)).symm
      · exact ((hmono _ _ ((ih _ _).mp ha)).trans _ _ _ (hedge.symm _ _)).trans _ _ _ ((hmono _ _ ((ih _ _).mp hb)).symm _ _)
    · intro h
      induction h with
      | rel c d h =>
        rcases mem_append.mp h with hold | hnew
        · exact merge_eq_iff.mpr (Or.inl ((ih c d).mpr (Relation.EqvGen.rel _ _ hold)))
        · obtain rfl := mem_singleton.mp hnew
          exact merge_eq_iff.mpr (Or.inr (Or.inl ⟨rfl, rfl⟩))
      | refl => rfl
      | symm _ _ _ ih' => exact ih'.symm
      | trans _ _ _ _ _ ih₁ ih₂ => exact ih₁.trans ih₂

end UnionFind

end ZapTrace
