import Mathlib.Data.List.Forall2
import Mathlib.Data.List.Nodup
import Mathlib.Data.List.Range

/-!
# Facts about lists

Lookups by index, loops that may fail or skip an element, and the lengths of lists that are put together.

## Main results

* `Lists.filterMap_range`: a list from its lookups
* `Lists.mapM_eq_ok_iff`, `Lists.exists_mapM_iff`: a loop that succeeds
* `Lists.accepted_of_length_gather`, `Lists.forall₂_gather_iff`: a loop that skips nothing
* `Lists.length_flatMap_le_of_forall₂`: lengths of lists that are put together
* `Lists.nodup_flatMap_iff`, `Lists.pairwise_iff_of_forall₂`: lists without repetition
* `Lists.filterMap_eq_of_length`: a selection that finds more, but not more of them
* `Lists.findSome?_range_eq_some_iff`: a search among the first numbers
-/

namespace Lists

open List Option

variable {α β ε : Type}

theorem filterMap_range (xs : List α) : ((range xs.length).filterMap fun i => xs[i]?) = xs := by
  induction xs using reverseRecOn with
  | nil => rfl
  | append_singleton xs x ih =>
    rw [length_append, length_singleton, range_succ, filterMap_append]
    have hinit : ((range xs.length).filterMap fun i => (xs ++ [x])[i]?) = xs := by
      refine Eq.trans (filterMap_congr fun i hi => ?_) ih
      exact getElem?_append_left (mem_range.mp hi)
    rw [hinit]
    simp

variable {xs : List α} {ys : List β}

/-- A loop that may fail succeeds when each of its steps does. -/
theorem mapM_eq_ok_iff {f : α → Except ε β} : xs.mapM f = .ok ys ↔ List.Forall₂ (fun x y => f x = .ok y) xs ys := by
  induction xs generalizing ys with
  | nil =>
    rw [mapM_nil, forall₂_nil_left_iff]
    exact ⟨fun h => (Except.ok.inj h).symm, fun h => h ▸ rfl⟩
  | cons x xs ih =>
    rw [mapM_cons]
    constructor
    · intro h
      cases hx : f x with
      | error e =>
        rw [hx] at h
        cases h
      | ok y =>
        rw [hx] at h
        cases hxs : xs.mapM f with
        | error e =>
          rw [hxs] at h
          cases h
        | ok ys' =>
          rw [hxs] at h
          cases h
          exact .cons hx (ih.mp hxs)
    · rintro (_ | ⟨hx, hxs⟩)
      rw [hx, ih.mpr hxs]
      rfl

theorem forM_eq_ok_iff {f : α → Except ε Unit} : xs.forM f = .ok () ↔ ∀ x ∈ xs, f x = .ok () := by
  induction xs with
  | nil => exact iff_of_true rfl nofun
  | cons x xs ih =>
    rw [forall_mem_cons, ← ih]
    show (f x >>= fun _ => xs.forM f) = .ok () ↔ _
    cases f x with
    | error e => exact ⟨nofun, fun h => nomatch h.1⟩
    | ok _ => exact ⟨fun h => ⟨rfl, h⟩, fun h => h.2⟩

theorem exists_anyM {f : α → Except ε Bool} {P : α → Prop} (h : ∀ x ∈ xs, ∃ b, f x = .ok b ∧ (b = true ↔ P x)) :
    ∃ b, xs.anyM f = .ok b ∧ (b = true ↔ ∃ x ∈ xs, P x) := by
  induction xs with
  | nil => exact ⟨false, rfl, by simp⟩
  | cons x xs ih =>
    obtain ⟨⟨b, hb, hx⟩, hrest⟩ := forall_mem_cons.mp h
    rw [anyM, hb]
    simp only [exists_mem_cons_iff, ← hx]
    cases b with
    | true => exact ⟨true, rfl, by simp⟩
    | false =>
      obtain ⟨b', hb', hxs⟩ := ih hrest
      exact ⟨b', hb', by simp [hxs]⟩

/-- A loop that may fail reaches its end when none of its steps fails. -/
theorem exists_mapM_iff {f : α → Except ε β} : (∃ ys, xs.mapM f = .ok ys) ↔ ∀ x ∈ xs, ∃ y, f x = .ok y := by
  constructor
  · rintro ⟨ys, hys⟩
    induction mapM_eq_ok_iff.mp hys with
    | nil => exact nofun
    | cons hxy hrest ih => exact forall_mem_cons.mpr ⟨⟨_, hxy⟩, ih (mapM_eq_ok_iff.mpr hrest)⟩
  · intro h
    induction xs with
    | nil => exact ⟨[], rfl⟩
    | cons x xs ih =>
      obtain ⟨y, hy⟩ := h x mem_cons_self
      obtain ⟨ys, hys⟩ := ih fun z hz => h z (mem_cons_of_mem x hz)
      exact ⟨y :: ys, mapM_eq_ok_iff.mpr (.cons hy (mapM_eq_ok_iff.mp hys))⟩

theorem mapM_eq_some_iff {f : α → Option β} : xs.mapM f = some ys ↔ List.Forall₂ (fun x y => f x = some y) xs ys := by
  induction xs generalizing ys with
  | nil =>
    rw [mapM_nil, forall₂_nil_left_iff]
    exact ⟨fun h => (some.inj h).symm, fun h => h ▸ rfl⟩
  | cons x xs ih =>
    rw [mapM_cons, forall₂_cons_left_iff]
    constructor
    · intro h
      obtain ⟨y, hy, h⟩ := bind_eq_some_iff.mp h
      obtain ⟨ys', hys', h⟩ := bind_eq_some_iff.mp h
      exact ⟨y, ys', hy, ih.mp hys', (some.inj h).symm⟩
    · rintro ⟨y, ys, hy, hys, rfl⟩
      rw [hy, ih.mpr hys]
      rfl

theorem mapM_eq_none_iff {f : α → Option β} : xs.mapM f = none ↔ ∃ x ∈ xs, f x = none := by
  induction xs with
  | nil => exact iff_of_false nofun (by simp)
  | cons x xs ih =>
    rw [mapM_cons, exists_mem_cons_iff, ← ih]
    cases hx : f x with
    | none => exact iff_of_true rfl (.inl rfl)
    | some y =>
      rw [or_iff_right (some_ne_none y)]
      cases xs.mapM f with
      | none => exact iff_of_true rfl rfl
      | some ys => exact iff_of_false nofun nofun

theorem forall₂_iff_of_forall₂ {R S : α → β → Prop} {P : α → Prop} (h : ∀ x y, S x y → (R x y ↔ P x))
    (hS : List.Forall₂ S xs ys) : List.Forall₂ R xs ys ↔ ∀ x ∈ xs, P x := by
  induction hS with
  | nil => exact iff_of_true .nil nofun
  | cons hxy _ ih => rw [forall₂_cons, forall_mem_cons, h _ _ hxy, ih]

variable {R : α → β → Prop}

theorem forall₂_comp {γ : Type} {S : β → γ → Prop} {zs : List γ} (hR : List.Forall₂ R xs ys) (hS : List.Forall₂ S ys zs) :
    List.Forall₂ (fun x z => ∃ y, R x y ∧ S y z) xs zs := by
  induction hR generalizing zs with
  | nil =>
    cases hS
    exact .nil
  | cons hxy _ ih =>
    cases hS with
    | cons hyz hrest => exact .cons ⟨_, hxy, hyz⟩ (ih hrest)

/-! ## Loops that skip -/

/-- A loop that may fail, and that may skip an element. -/
def gather (step : α → Except ε (Option β)) (xs : List α) : Except ε (List β) := do
  return (← xs.mapM step).filterMap id
variable {step : α → Except ε (Option β)}

theorem gather_eq_ok_iff :
    gather step xs = .ok ys ↔
      ∃ zs, List.Forall₂ (fun x z => step x = .ok z) xs zs ∧ zs.filterMap id = ys := by
  unfold gather
  cases h : xs.mapM step with
  | error e =>
    refine iff_of_false nofun ?_
    rintro ⟨zs, hzs, -⟩
    rw [mapM_eq_ok_iff.mpr hzs] at h
    cases h
  | ok zs =>
    constructor
    · intro heq
      exact ⟨zs, mapM_eq_ok_iff.mp h, Except.ok.inj heq⟩
    · rintro ⟨zs', hzs', heq⟩
      rw [mapM_eq_ok_iff.mpr hzs'] at h
      rw [← heq, Except.ok.inj h]
      rfl

theorem exists_gather_iff : (∃ ys, gather step xs = .ok ys) ↔ ∀ x ∈ xs, ∃ z, step x = .ok z := by
  rw [← exists_mapM_iff]
  constructor
  · rintro ⟨ys, hys⟩
    obtain ⟨zs, hzs, -⟩ := gather_eq_ok_iff.mp hys
    exact ⟨zs, mapM_eq_ok_iff.mpr hzs⟩
  · rintro ⟨zs, hzs⟩
    exact ⟨zs.filterMap id, gather_eq_ok_iff.mpr ⟨zs, mapM_eq_ok_iff.mp hzs, rfl⟩⟩

theorem length_gather_le (h : gather step xs = .ok ys) : ys.length ≤ xs.length := by
  obtain ⟨zs, hzs, rfl⟩ := gather_eq_ok_iff.mp h
  rw [hzs.length_eq]
  exact length_filterMap_le id zs

section

variable {step : α → Except ε (Option β)} {Keeps : α → β → Prop} {Accepted : α → Prop}
  (hkeep : ∀ x y, step x = .ok (some y) → Accepted x ∧ Keeps x y)

include hkeep

/-- A loop that gives as many elements as it visits has accepted each. -/
theorem accepted_of_length_gather {xs : List α} {ys : List β} (h : gather step xs = .ok ys)
    (hlength : ys.length = xs.length) : ∀ x ∈ xs, Accepted x := by
  obtain ⟨zs, hzs, rfl⟩ := gather_eq_ok_iff.mp h
  clear h
  induction hzs with
  | nil => exact nofun
  | @cons x z xs zs hx hrest ih =>
    have hle : (zs.filterMap id).length ≤ zs.length := length_filterMap_le id zs
    have hrest := hrest.length_eq
    cases z with
    | none =>
      -- one element is skipped, so there are too few
      rw [filterMap_cons_none rfl, length_cons] at hlength
      omega
    | some y =>
      rw [filterMap_cons_some (f := id) (a := some y) rfl, length_cons, length_cons] at hlength
      exact forall_mem_cons.mpr ⟨(hkeep x y hx).1, ih (by omega)⟩

/-- **A loop that skips elements keeps all of them when it accepts each.** -/
theorem forall₂_gather_iff (hskip : ∀ x, step x = .ok none → ¬ Accepted x) {xs : List α} {ys : List β}
    (h : gather step xs = .ok ys) : List.Forall₂ Keeps xs ys ↔ ∀ x ∈ xs, Accepted x := by
  refine ⟨fun hforall => accepted_of_length_gather hkeep h hforall.length_eq.symm, fun hall => ?_⟩
  obtain ⟨zs, hzs, rfl⟩ := gather_eq_ok_iff.mp h
  clear h
  induction hzs with
  | nil => exact .nil
  | @cons x z xs zs hx hrest ih =>
    obtain ⟨haccepted, hall⟩ := forall_mem_cons.mp hall
    cases z with
    | none => exact absurd haccepted (hskip x hx)
    | some y => exact .cons (hkeep x y hx).2 (ih hall)

end

/-- Lists that are put together are no longer than others when no part is; when they are of one length, each
part is. -/
theorem length_flatMap_le_of_forall₂ {γ δ : Type} {f : α → List γ} {g : β → List δ}
    (hle : ∀ x y, R x y → (g y).length ≤ (f x).length) (h : List.Forall₂ R xs ys) :
    (ys.flatMap g).length ≤ (xs.flatMap f).length ∧
      ((ys.flatMap g).length = (xs.flatMap f).length →
        List.Forall₂ (fun x y => R x y ∧ (g y).length = (f x).length) xs ys) := by
  induction h with
  | nil => exact ⟨le_rfl, fun _ => .nil⟩
  | cons hxy hrest ih =>
    obtain ⟨hlength, heq⟩ := ih
    have hhead := hle _ _ hxy
    rw [flatMap_cons, flatMap_cons, length_append, length_append]
    refine ⟨by omega, fun h => ?_⟩
    exact .cons ⟨hxy, by omega⟩ (heq (by omega))

theorem eq_of_append_cons {c : α} {xs ys xs' ys' : List α} (hc : c ∉ ys) (hc' : c ∉ ys')
    (h : xs ++ c :: ys = xs' ++ c :: ys') : xs = xs' := by
  rcases append_eq_append_iff.mp h with ⟨between, hxs, hys⟩ | ⟨between, hxs, hys⟩
  · cases between with
    | nil => exact (hxs.trans (append_nil xs)).symm
    | cons b between =>
      rw [cons_append, cons.injEq] at hys
      exact absurd (hys.2 ▸ mem_append_right between mem_cons_self) hc
  · cases between with
    | nil => exact hxs.trans (append_nil xs')
    | cons b between =>
      rw [cons_append, cons.injEq] at hys
      exact absurd (hys.2 ▸ mem_append_right between mem_cons_self) hc'

theorem append_cons_inj {c : α} {xs ys xs' ys' : List α} (hc : c ∉ xs) (hc' : c ∉ xs')
    (h : xs ++ c :: ys = xs' ++ c :: ys') : xs = xs' ∧ ys = ys' := by
  have hreverse := congrArg reverse h
  simp only [reverse_append, reverse_cons, append_assoc, singleton_append] at hreverse
  have hys : ys.reverse = ys'.reverse :=
    eq_of_append_cons (by rwa [mem_reverse]) (by rwa [mem_reverse]) hreverse
  obtain rfl := reverse_injective hys
  exact ⟨append_cancel_right h, rfl⟩

/-! ## Lists without repetition -/

theorem nodup_append_iff_of_ne {κ : Type} {key : α → κ} {xs ys : List α}
    (h : ∀ x ∈ xs, ∀ y ∈ ys, key x ≠ key y) : (xs ++ ys).Nodup ↔ xs.Nodup ∧ ys.Nodup := by
  rw [nodup_append]
  refine and_congr_right fun _ => and_iff_left ?_
  intro x hx y hy heq
  exact h x hx y hy (congrArg key heq)

/-- Lists that are put together, each of which has a key, and shares an element only with lists of the same key. -/
theorem nodup_flatMap_iff {κ : Type} {f : α → List β} {key : α → κ} (hself : ∀ x, (f x).Nodup)
    (h : ∀ x y, List.Disjoint (f x) (f y) ↔ key x ≠ key y) : (xs.flatMap f).Nodup ↔ (xs.map key).Nodup := by
  have hmap : (xs.map key).Nodup ↔ xs.Pairwise fun x y => key x ≠ key y := pairwise_map
  rw [nodup_flatMap, hmap]
  refine ⟨fun hxs => hxs.2.imp fun hdisjoint => (h _ _).mp hdisjoint, fun hxs => ⟨fun x _ => hself x, ?_⟩⟩
  exact hxs.imp fun hne => (h _ _).mpr hne

/-- A relation of pairs of one list is a relation of the pairs of the other, where a third relation holds. -/
theorem pairwise_iff_of_forall₂ {P S : α → α → Prop} {T : β → β → Prop}
    (h : ∀ x x' y y', P x x' → R x y → R x' y' → (S x x' ↔ T y y')) (hxy : List.Forall₂ R xs ys) (hxs : xs.Pairwise P) :
    xs.Pairwise S ↔ ys.Pairwise T := by
  induction hxy with
  | nil => exact iff_of_true .nil .nil
  | @cons x y xs ys hhead hrest ih =>
    rw [pairwise_cons] at hxs
    obtain ⟨hfirst, htail⟩ := hxs
    rw [pairwise_cons, pairwise_cons, ih htail]
    apply and_congr_left
    rintro -
    clear ih htail
    induction hrest with
    | nil => simp
    | @cons x' y' xs ys hhead' hrest ih =>
      obtain ⟨hx', hfirst⟩ := forall_mem_cons.mp hfirst
      rw [forall_mem_cons, forall_mem_cons, h x x' y y' hx' hhead hhead', ih hfirst]

/-! ## Selections -/

theorem length_filterMap_le {f g : α → Option β} (h : ∀ x ∈ xs, f x ≠ none → g x = f x) :
    (xs.filterMap f).length ≤ (xs.filterMap g).length := by
  induction xs with
  | nil => exact le_rfl
  | cons x xs ih =>
    obtain ⟨hx, hxs⟩ := forall_mem_cons.mp h
    have ih := ih hxs
    cases hf : f x with
    | none =>
      rw [filterMap_cons_none hf]
      cases hg : g x with
      | none => rwa [filterMap_cons_none hg]
      | some b =>
        rw [filterMap_cons_some hg, length_cons]
        exact ih.trans (Nat.le_succ _)
    | some a =>
      rw [filterMap_cons_some hf, filterMap_cons_some ((hx (hf ▸ some_ne_none a)).trans hf),
        length_cons, length_cons]
      exact Nat.succ_le_succ ih

/-- A selection that finds more, but not more of them, finds the same. -/
theorem filterMap_eq_of_length {f g : α → Option β} (h : ∀ x ∈ xs, f x ≠ none → g x = f x)
    (hlength : (xs.filterMap f).length = (xs.filterMap g).length) : ∀ x ∈ xs, g x = f x := by
  induction xs with
  | nil => exact fun x hx => absurd hx not_mem_nil
  | cons x xs ih =>
    obtain ⟨hx, hxs⟩ := forall_mem_cons.mp h
    have hle := length_filterMap_le hxs
    cases hf : f x with
    | none =>
      rw [filterMap_cons_none hf] at hlength
      cases hg : g x with
      | none =>
        rw [filterMap_cons_none hg] at hlength
        exact forall_mem_cons.mpr ⟨hg.trans hf.symm, ih hxs hlength⟩
      | some b =>
        -- one more is found, and none is lost
        rw [filterMap_cons_some hg, length_cons] at hlength
        omega
    | some a =>
      have hg := hx (hf ▸ some_ne_none a)
      rw [filterMap_cons_some hf, filterMap_cons_some (hg.trans hf), length_cons, length_cons,
        Nat.succ_inj] at hlength
      exact forall_mem_cons.mpr ⟨hg, ih hxs hlength⟩

/-- A search among the first numbers finds the first that gives something. -/
theorem findSome?_range_eq_some_iff {f : ℕ → Option β} {n : ℕ} {b : β} :
    (range n).findSome? f = some b ↔ ∃ i < n, f i = some b ∧ ∀ k < i, f k = none := by
  induction n with
  | zero => simp
  | succ n ih =>
    rw [range_succ, findSome?_append, findSome?_singleton, or_eq_some_iff, ih,
      findSome?_eq_none_iff]
    constructor
    · rintro (⟨i, hi, hfound, hbefore⟩ | ⟨hnone, hfound⟩)
      · exact ⟨i, by omega, hfound, hbefore⟩
      · exact ⟨n, by omega, hfound, fun k hk => hnone k (mem_range.mpr hk)⟩
    · rintro ⟨i, hi, hfound, hbefore⟩
      rcases Nat.lt_succ_iff_lt_or_eq.mp hi with hi | rfl
      · exact .inl ⟨i, hi, hfound, hbefore⟩
      · exact .inr ⟨fun k hk => hbefore k (mem_range.mp hk), hfound⟩

end Lists
