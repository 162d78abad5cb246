import Mathlib.Data.Fintype.Card
import Mathlib.Data.Prod.Lex
import Mathlib.Data.Set.Finite.Basic
import Mathlib.Logic.Function.Basic
import Mathlib.Logic.Relation
import Mathlib.Order.WellFounded
import ZapTrace.Library.Dict

/-!
# Tables whose values name a parent

A value of a table may name another key as its parent. A key leads to another when the parents of one
after the other end there. A table is cut at some keys when these and all that leads to them are taken
out; two algorithms that take entries out one by one are shown to cut: a worklist, and a recursion over
the children. The parents of a key end when the chain of them is finite.

## Main results

* `Links.ends_of_acyclic`: in a finite table without cycles all chains are finite
* `Links.ends_update_iff`: a new link keeps all chains finite exactly when it closes no cycle
* `Links.cut_cons`, `Links.cut_append`: cutting at one key after the other
* `Links.get?_deleteLinked`, `Links.get?_removeLinked`: both algorithms cut the table
-/

namespace Links

open Function List

variable {κ α : Type}

/-! ## Chains of parents -/

/-- The chain of parents from a key passes another. -/
def Leads (next : κ → Option κ) : κ → κ → Prop := Relation.ReflTransGen fun a b => next a = some b

/-- The chain of parents from a key is finite. -/
def Ends (next : κ → Option κ) : κ → Prop := Acc fun b a => next a = some b

variable {next next' : κ → Option κ}

@[refl] theorem Leads.refl (k : κ) : Leads next k k := Relation.ReflTransGen.refl

theorem Leads.head {k p x : κ} (hp : next k = some p) (h : Leads next p x) : Leads next k x :=
  Relation.ReflTransGen.head hp h

theorem Leads.tail {k p x : κ} (h : Leads next k p) (hx : next p = some x) : Leads next k x :=
  Relation.ReflTransGen.tail h hx

theorem Leads.trans {k p x : κ} (h : Leads next k p) (hx : Leads next p x) : Leads next k x :=
  Relation.ReflTransGen.trans h hx

theorem Leads.cases_head {k x : κ} (h : Leads next k x) :
    k = x ∨ ∃ p, next k = some p ∧ Leads next p x :=
  Relation.ReflTransGen.cases_head h

theorem Leads.cases_tail {k x : κ} (h : Leads next k x) :
    k = x ∨ ∃ y, Leads next k y ∧ next y = some x :=
  (Relation.ReflTransGen.cases_tail h).imp Eq.symm id

theorem Leads.mono (h : ∀ a b, next a = some b → next' a = some b) {k x : κ} (hk : Leads next k x) :
    Leads next' k x :=
  Relation.ReflTransGen.mono h k x hk

theorem Ends.mono (h : ∀ a b, next' a = some b → next a = some b) {k : κ} (hk : Ends next k) :
    Ends next' k :=
  Subrelation.accessible (fun {_ _} hab => h _ _ hab) hk

theorem ends_iff {k : κ} : Ends next k ↔ ∀ p, next k = some p → Ends next p :=
  ⟨fun h _ hp => h.inv hp, fun h => ⟨k, h⟩⟩

theorem leads_congr {k y : κ} (h : ∀ x, Leads next k x → next' x = next x) :
    Leads next' k y ↔ Leads next k y := by
  constructor
  · intro hy
    induction hy with
    | refl => exact .refl k
    | @tail x y hx hxy ih => exact ih.tail ((h x ih).symm.trans hxy)
  · intro hy
    induction hy with
    | refl => exact .refl k
    | @tail x y hx hxy ih => exact ih.tail ((h x hx).trans hxy)

theorem Ends.congr {k : κ} (hk : Ends next k) (h : ∀ x, Leads next k x → next' x = next x) :
    Ends next' k := by
  induction hk with
  | intro k _ ih =>
    refine ends_iff.mpr fun p hp => ?_
    rw [h k (.refl k)] at hp
    exact ih p hp fun x hx => h x (hx.head hp)

theorem Ends.not_leads {k : κ} (h : Ends next k) : ∀ p, next k = some p → ¬ Leads next p k := by
  induction h with
  | intro k _ ih =>
    intro p hp hback
    rcases hback.cases_head with rfl | ⟨q, hq, hrest⟩
    · exact ih p hp p hp (.refl p)
    · exact ih p hp q hq (hrest.tail hp)

/-- In a finite table without cycles all chains are finite. -/
theorem ends_of_acyclic {dom : List κ} (hdom : ∀ k p, next k = some p → k ∈ dom)
    (h : ∀ k p, next k = some p → ¬ Leads next p k) (k : κ) : Ends next k := by
  have hfinite : Finite { k // k ∈ dom } := (finite_toSet dom).to_subtype
  -- what comes later in a chain of parents is below, which is well founded on a finite type
  let below : { k // k ∈ dom } → { k // k ∈ dom } → Prop := fun b a =>
    ∃ p, next a.1 = some p ∧ Leads next p b.1
  have htrans : IsTrans _ below := ⟨fun c b a hcb hba => by
    obtain ⟨p, hp, hleads⟩ := hcb
    obtain ⟨q, hq, hleads'⟩ := hba
    exact ⟨q, hq, hleads'.trans (hleads.head hp)⟩⟩
  have hirrefl : Std.Irrefl below := ⟨fun a ⟨p, hp, hleads⟩ => h a.1 p hp hleads⟩
  have hwf : WellFounded below := Finite.wellFounded_of_trans_of_irrefl below
  have hmem : ∀ a : { k // k ∈ dom }, Ends next a.1 := by
    intro a
    induction a using hwf.induction with
    | _ a ih =>
      refine ends_iff.mpr fun p hp => ?_
      by_cases hpdom : p ∈ dom
      · exact ih ⟨p, hpdom⟩ ⟨p, hp, .refl p⟩
      · exact ends_iff.mpr fun q hq => absurd (hdom p q hq) hpdom
  exact ends_iff.mpr fun p hp => (hmem ⟨k, hdom k p hp⟩).inv hp

theorem Ends.update [DecidableEq κ] {k p : κ} (h : Ends next p) (hk : ¬ Leads next p k)
    (v : Option κ) : Ends (update next k v) p := by
  induction h with
  | intro p _ ih =>
    refine ends_iff.mpr fun q hq => ?_
    have hne : p ≠ k := by
      rintro rfl
      exact hk (.refl p)
    rw [update_of_ne hne] at hq
    exact ih q hq fun hqk => hk (hqk.head hq)

/-- **New links**: when all chains are finite, a link from a key without one keeps them so exactly when
the chain from its parent does not pass the key. -/
theorem ends_update_iff [DecidableEq κ] (h : ∀ k, Ends next k) {k p : κ} (hk : next k = none) :
    (∀ y, Ends (update next k (some p)) y) ↔ ¬ Leads next p k := by
  constructor
  · intro hends hleads
    have hold : ∀ a b, next a = some b → update next k (some p) a = some b := by
      intro a b hab
      have hne : a ≠ k := by
        rintro rfl
        cases hk.symm.trans hab
      rw [update_of_ne hne]
      exact hab
    exact (hends k).not_leads p (update_self ..) (hleads.mono hold)
  · intro hnot y
    -- the key itself has one chain to follow, and every other chain is as it was up to the key
    have hself : Ends (update next k (some p)) k := by
      refine ends_iff.mpr fun q hq => ?_
      rw [update_self] at hq
      cases hq
      exact (h p).update hnot _
    have hy := h y
    induction hy with
    | intro y _ ih =>
      by_cases hyk : y = k
      · exact hyk ▸ hself
      · refine ends_iff.mpr fun q hq => ?_
        rw [update_of_ne hyk] at hq
        exact ih q hq

/-! ## Cutting a table -/

section Cut

variable (parent : α → Option κ) (look : κ → Option α)

/-- What a key names as its parent. -/
def link (k : κ) : Option κ := (look k).bind parent

open Classical in
/-- The table without the keys that lead to one of the given ones. -/
noncomputable def cut (xs : List κ) (k : κ) : Option α :=
  if ∃ x ∈ xs, Leads (link parent look) k x then none else look k

variable {parent look}
variable {xs : List κ}

theorem cut_eq_some_iff {k : κ} {a : α} : cut parent look xs k = some a ↔
    look k = some a ∧ ∀ x ∈ xs, ¬ Leads (link parent look) k x := by
  unfold cut
  split
  · rename_i h
    obtain ⟨x, hx, hleads⟩ := h
    exact ⟨nofun, fun h => absurd hleads (h.2 x hx)⟩
  · rename_i h
    exact ⟨fun ha => ⟨ha, fun x hx hleads => h ⟨x, hx, hleads⟩⟩, fun ha => ha.1⟩

@[simp] theorem cut_nil : cut parent look [] = look := by
  ext k a
  simp [cut_eq_some_iff]

theorem link_mono {look' : κ → Option α} (h : ∀ k a, look' k = some a → look k = some a) (k p : κ)
    (hk : link parent look' k = some p) : link parent look k = some p := by
  obtain ⟨a, ha, hp⟩ := Option.bind_eq_some_iff.mp hk
  exact Option.bind_eq_some_iff.mpr ⟨a, h k a ha, hp⟩

theorem cut_eq_self (h : ∀ k a, look k = some a → ∀ x ∈ xs, ¬ Leads (link parent look) k x) :
    cut parent look xs = look := by
  ext k a
  rw [cut_eq_some_iff]
  exact ⟨fun ha => ha.1, fun ha => ⟨ha, h k a ha⟩⟩

theorem link_cut_eq_some_iff {k p : κ} : link parent (cut parent look xs) k = some p ↔
    link parent look k = some p ∧ ∀ x ∈ xs, ¬ Leads (link parent look) k x := by
  simp only [link, Option.bind_eq_some_iff, cut_eq_some_iff]
  constructor
  · rintro ⟨a, ⟨ha, hx⟩, hp⟩
    exact ⟨⟨a, ha, hp⟩, hx⟩
  · rintro ⟨⟨a, ha, hp⟩, hx⟩
    exact ⟨a, ⟨ha, hx⟩, hp⟩

theorem leads_cut_iff {k y : κ} (hk : ∀ x ∈ xs, ¬ Leads (link parent look) k x) :
    Leads (link parent (cut parent look xs)) k y ↔ Leads (link parent look) k y := by
  refine ⟨fun h => h.mono fun a b hab => (link_cut_eq_some_iff.mp hab).1, fun h => ?_⟩
  induction h using Relation.ReflTransGen.head_induction_on with
  | refl => exact .refl y
  | head hstep hrest ih =>
    apply Leads.head (link_cut_eq_some_iff.mpr ⟨hstep, hk⟩)
    exact ih fun x hx hleads => hk x hx (hleads.head hstep)

/-- **Cuts in sequence** are a cut at all the keys. -/
theorem cut_append (xs ys : List κ) :
    cut parent (cut parent look xs) ys = cut parent look (xs ++ ys) := by
  ext k a
  simp only [cut_eq_some_iff, mem_append]
  constructor
  · rintro ⟨⟨ha, hxs⟩, hys⟩
    refine ⟨ha, fun x hx => ?_⟩
    rcases hx with hx | hx
    · exact hxs x hx
    · exact fun hleads => hys x hx ((leads_cut_iff hxs).mpr hleads)
  · rintro ⟨ha, hall⟩
    have hxs : ∀ x ∈ xs, ¬ Leads (link parent look) k x := fun x hx => hall x (.inl hx)
    exact ⟨⟨ha, hxs⟩, fun y hy hleads => hall y (.inr hy) ((leads_cut_iff hxs).mp hleads)⟩

variable [DecidableEq κ]

theorem link_update_none_eq_some_iff {c k p : κ} :
    link parent (update look c none) k = some p ↔ k ≠ c ∧ link parent look k = some p := by
  by_cases h : k = c
  · subst h
    simp [link]
  · simp [link, h]

theorem leads_of_ne {c k y : κ} (hk : k ≠ c) (h : Leads (link parent look) k y) :
    Leads (link parent (update look c none)) k y ∨
      ∃ child, link parent look child = some c ∧
        Leads (link parent (update look c none)) k child := by
  induction h using Relation.ReflTransGen.head_induction_on with
  | refl => exact .inl (.refl y)
  | @head k k' hstep hrest ih =>
    have hstep' := link_update_none_eq_some_iff.mpr ⟨hk, hstep⟩
    by_cases hk' : k' = c
    · subst hk'
      exact .inr ⟨k, hstep, .refl k⟩
    · rcases ih hk' with h | ⟨child, hchild, h⟩
      · exact .inl (h.head hstep')
      · exact .inr ⟨child, hchild, h.head hstep'⟩

/-- **One step of a cut**: the key itself, and then its children. -/
theorem cut_cons {c : κ} {rest children : List κ}
    (hchildren : ∀ y, y ≠ c → (y ∈ children ↔ link parent look y = some c)) :
    cut parent (update look c none) (children ++ rest) = cut parent look (c :: rest) := by
  have hsub : ∀ a b, link parent (update look c none) a = some b →
      link parent look a = some b := fun a b hab => (link_update_none_eq_some_iff.mp hab).2
  ext k a
  simp only [cut_eq_some_iff, mem_append, mem_cons]
  constructor
  · rintro ⟨ha, hall⟩
    have hk : k ≠ c := by
      rintro rfl
      rw [update_self] at ha
      cases ha
    rw [update_of_ne hk] at ha
    have hc : ¬ ∃ child, link parent look child = some c ∧
        Leads (link parent (update look c none)) k child := by
      rintro ⟨child, hchild, hleads⟩
      by_cases hcc : child = c
      · -- a chain to the key itself comes from a child too
        subst hcc
        rcases hleads.cases_tail with rfl | ⟨b, hb, hlast⟩
        · exact hk rfl
        · obtain ⟨hbc, hlast⟩ := link_update_none_eq_some_iff.mp hlast
          exact hall b (.inl ((hchildren b hbc).mpr hlast)) hb
      · exact hall child (.inl ((hchildren child hcc).mpr hchild)) hleads
    refine ⟨ha, fun x hx hleads => ?_⟩
    rcases leads_of_ne hk hleads with h | h
    · rcases hx with rfl | hx
      · rcases h.cases_tail with rfl | ⟨b, hb, hlast⟩
        · exact hk rfl
        · exact hc ⟨b, (link_update_none_eq_some_iff.mp hlast).2, hb⟩
      · exact hall x (.inr hx) h
    · exact hc h
  · rintro ⟨ha, hall⟩
    have hk : k ≠ c := by
      rintro rfl
      exact hall k (.inl rfl) (.refl k)
    refine ⟨by rwa [update_of_ne hk], fun x hx hleads => ?_⟩
    have hleads := hleads.mono hsub
    by_cases hxc : x = c
    · exact hall c (.inl rfl) (hxc ▸ hleads)
    rcases hx with hx | hx
    · exact hall c (.inl rfl) (hleads.tail ((hchildren x hxc).mp hx))
    · exact hall x (.inr hx) hleads

end Cut

/-! ## Two algorithms -/

section Algorithms

variable [DecidableEq κ] (parent : α → Option κ)

/-- The keys whose values name the key as their parent. -/
def children (d : Dict κ α) (c : κ) : List κ :=
  (d.items.filter fun item => parent item.2 = some c).map Prod.fst

theorem get?_erase_eq_update (d : Dict κ α) (c : κ) :
    (d.erase c).get? = update d.get? c none := by
  ext k a
  rw [Dict.get?_erase]
  by_cases h : k = c
  · subst h
    simp
  · simp [h]

variable {parent}
variable {d : Dict κ α}

theorem mem_children_iff {c y : κ} : y ∈ children parent d c ↔ link parent d.get? y = some c := by
  simp only [children, mem_map, mem_filter, decide_eq_true_eq, link,
    Option.bind_eq_some_iff, Dict.get?_eq_some_iff]
  constructor
  · rintro ⟨⟨k, a⟩, ⟨hmem, hparent⟩, rfl⟩
    exact ⟨a, hmem, hparent⟩
  · rintro ⟨a, hmem, hparent⟩
    exact ⟨(y, a), ⟨hmem, hparent⟩, rfl⟩

theorem mem_keys_of_mem_children {c y : κ} (h : y ∈ children parent d c) : y ∈ d.keys := by
  obtain ⟨item, hitem, rfl⟩ := mem_map.mp h
  exact mem_map_of_mem (mem_filter.mp hitem).1

variable (parent)

def gone (pending : List κ) (d : Dict κ α) : List κ := pending.filter fun k => k ∉ d.keys

theorem worklist_decreases {c : κ} {children : List κ} (hchildren : ∀ y ∈ children, y ∈ d.keys) (rest : List κ) :
    Prod.Lex (· < ·) (· < ·) ((d.erase c).keys.length, (gone (children ++ rest) (d.erase c)).length)
      (d.keys.length, (gone (c :: rest) d).length) := by
  by_cases hc : c ∈ d.keys
  · exact Prod.Lex.left _ _ (Dict.length_keys_erase_lt hc)
  · -- nothing is deleted, and all that becomes pending is there
    rw [Dict.erase_of_not_mem hc]
    apply Prod.Lex.right
    have hnone : children.filter (fun k => k ∉ d.keys) = [] := by
      apply filter_eq_nil_iff.mpr
      intro y hy
      simpa using hchildren y hy
    rw [gone, gone, filter_append, hnone, nil_append, filter_cons_of_pos (by simpa using hc)]
    exact Nat.lt_succ_self _

/-- A worklist: a pending key is deleted, and the keys that name it as their parent become pending. The
last pending key, which is taken next, stands first. -/
def deleteLinked (pending : List κ) (d : Dict κ α) : Dict κ α :=
  match pending with
  | [] => d
  | c :: rest => deleteLinked ((children parent d c).reverse ++ rest) (d.erase c)
termination_by (d.keys.length, (gone pending d).length)
decreasing_by
  exact worklist_decreases (fun y hy => mem_keys_of_mem_children (mem_reverse.mp hy)) rest

/-- A recursion: a key is deleted, and then each key that named it as its parent, with what leads to it.
The depth of the recursion is at most the number of keys. -/
def removeLinked : ℕ → κ → Dict κ α → Dict κ α
  | 0, _, d => d
  | fuel + 1, x, d =>
    (children parent (d.erase x) x).foldl (fun d c => removeLinked fuel c d) (d.erase x)

variable {parent}

/-- **The worklist** cuts the table. -/
theorem get?_deleteLinked (pending : List κ) (d : Dict κ α) :
    (deleteLinked parent pending d).get? = cut parent d.get? pending := by
  fun_induction deleteLinked parent pending d with
  | case1 d => exact cut_nil.symm
  | case2 d c rest ih =>
    rw [ih, get?_erase_eq_update]
    apply cut_cons
    intro y _
    rw [mem_reverse, mem_children_iff]

theorem keys_removeLinked_sublist (fuel : ℕ) (x : κ) (d : Dict κ α) :
    (removeLinked parent fuel x d).keys.Sublist d.keys := by
  induction fuel generalizing x d with
  | zero => exact List.Sublist.refl _
  | succ fuel ih =>
    have hfold : ∀ (cs : List κ) (e : Dict κ α),
        (cs.foldl (fun d c => removeLinked parent fuel c d) e).keys.Sublist e.keys := by
      intro cs
      induction cs with
      | nil => exact fun e => List.Sublist.refl _
      | cons c cs ihcs => exact fun e => (ihcs _).trans (ih c e)
    exact (hfold _ _).trans (Dict.keys_erase d x ▸ filter_sublist)

/-- **The recursion** cuts the table, when it may go as deep as there are keys below its own. -/
theorem get?_removeLinked {fuel : ℕ} {x : κ} (h : (d.erase x).keys.length < fuel) :
    (removeLinked parent fuel x d).get? = cut parent d.get? [x] := by
  induction fuel generalizing x d with
  | zero => exact absurd h (Nat.not_lt_zero _)
  | succ fuel ih =>
    have hfold : ∀ (cs : List κ) (e : Dict κ α), e.keys.Sublist (d.erase x).keys →
        (∀ c ∈ cs, c ∈ (d.erase x).keys) →
        (cs.foldl (fun d c => removeLinked parent fuel c d) e).get? = cut parent e.get? cs := by
      intro cs
      induction cs with
      | nil => exact fun e _ _ => cut_nil.symm
      | cons c cs ihcs =>
        intro e hsub hcs
        have hlt : (e.erase c).keys.length < fuel := by
          have hle : (e.erase c).keys.length ≤ ((d.erase x).erase c).keys.length := by
            rw [Dict.keys_erase, Dict.keys_erase (d.erase x)]
            exact (hsub.filter _).length_le
          have := Dict.length_keys_erase_lt (hcs c mem_cons_self)
          omega
        rw [foldl_cons, ihcs _ ((keys_removeLinked_sublist fuel c e).trans hsub)
          (fun c' hc' => hcs c' (mem_cons_of_mem _ hc')), ih hlt, cut_append]
        rfl
    rw [removeLinked, hfold _ _ (List.Sublist.refl _) fun c hc => mem_keys_of_mem_children hc,
      get?_erase_eq_update, ← append_nil (children parent (d.erase x) x)]
    apply cut_cons
    intro y hy
    rw [mem_children_iff, get?_erase_eq_update, link_update_none_eq_some_iff]
    exact and_iff_right hy

end Algorithms

end Links
