import Mathlib.Algebra.Order.BigOperators.Group.List
import Mathlib.Combinatorics.SimpleGraph.Acyclic
import Mathlib.Data.List.MinMax

/-!
# Prim's algorithm

A tree grows from one vertex: each round adds an edge of the least weight from a marked vertex to one that is not
marked. The edges are those of a tree of all vertices, and no tree of all vertices weighs less.

Edges are compared with another tree after the marked vertices are taken for one. When the edge to `v` is added, the
other tree has an edge between a marked vertex and one that it joins to `v` without marked vertices. This edge weighs at
least as much, and without it the other tree still joins all vertices once `v` is marked.

## Main results

* `Prim.exists_exchange`: the edge that another tree has for an edge of the algorithm
* `Prim.Grown.sum_le`: no edges that join all vertices weigh less
* `Prim.isMinimal_rounds`: a program that picks edges of the least weight
-/

namespace Prim

open List hiding getElem?_eq_some_iff

variable {V K : Type}

/-! ## Graphs of edges -/

def graphOf (edges : List (V × V)) : SimpleGraph V := SimpleGraph.fromRel fun a b => (a, b) ∈ edges
variable {edges : List (V × V)}

theorem graphOf_adj {a b : V} :
    (graphOf edges).Adj a b ↔ a ≠ b ∧ ((a, b) ∈ edges ∨ (b, a) ∈ edges) := SimpleGraph.fromRel_adj _ a b

/-- One end of the edge has the property, and the other has not. -/
def Divides (P : V → Prop) (e : V × V) : Prop := (P e.1 ∧ ¬ P e.2) ∨ (P e.2 ∧ ¬ P e.1)

/-- The edges cross every division of the vertices that leaves the marked ones together. -/
def Joins (S : V → Prop) (edges : List (V × V)) : Prop :=
  ∀ P : V → Prop, (∀ a b, S a → S b → P a → P b) → ∀ a b, P a → ¬ P b → ∃ e ∈ edges, Divides P e

theorem joins_of_connected (h : (graphOf edges).Connected) (S : V → Prop) : Joins S edges := by
  intro P _ a b ha hb
  by_contra hnone
  have hkeep : ∀ x y, (graphOf edges).Adj x y → P x → P y := by
    intro x y hadj hx
    by_contra hy
    rcases (graphOf_adj.mp hadj).2 with hmem | hmem
    · exact hnone ⟨(x, y), hmem, .inl ⟨hx, hy⟩⟩
    · exact hnone ⟨(y, x), hmem, .inr ⟨hx, hy⟩⟩
  obtain ⟨walk⟩ := h.preconnected a b
  have hwalk : ∀ {x y : V}, (graphOf edges).Walk x y → P x → P y := by
    intro x y walk
    induction walk with
    | nil => exact id
    | cons hadj _ ih => exact fun hx => ih (hkeep _ _ hadj hx)
  exact hb (hwalk walk ha)

theorem connected_of_joins [Nonempty V] {S : V → Prop} (hS : ∀ a b, S a → S b → a = b) (h : Joins S edges) :
    (graphOf edges).Connected := by
  refine ⟨fun a b => ?_⟩
  by_contra hb
  obtain ⟨e, hmem, hdivides⟩ :=
    h ((graphOf edges).Reachable a) (fun x y hx hy hreach => hS x y hx hy ▸ hreach) a b (.refl a) hb
  have hne : e.1 ≠ e.2 := by
    intro heq
    unfold Divides at hdivides
    rw [heq] at hdivides
    exact hdivides.elim (fun hd => hd.2 hd.1) fun hd => hd.2 hd.1
  have hadj : (graphOf edges).Adj e.1 e.2 := graphOf_adj.mpr ⟨hne, .inl hmem⟩
  rcases hdivides with ⟨hfirst, hsecond⟩ | ⟨hsecond, hfirst⟩
  · exact hsecond (hfirst.trans hadj.reachable)
  · exact hfirst (hsecond.trans hadj.symm.reachable)

theorem isTree_of_connected [Fintype V] (h : (graphOf edges).Connected) (hlength : edges.length + 1 = Fintype.card V) :
    (graphOf edges).IsTree := by
  classical
  refine SimpleGraph.isTree_iff_connected_and_card.mpr ⟨h, ?_⟩
  have hsub : (graphOf edges).edgeSet ⊆ ((edges.map fun e => s(e.1, e.2)).toFinset : Set (Sym2 V)) := by
    intro e he
    induction e with
    | h a b =>
      rw [Finset.mem_coe, mem_toFinset, mem_map]
      rcases (graphOf_adj.mp he).2 with hmem | hmem
      · exact ⟨(a, b), hmem, rfl⟩
      · exact ⟨(b, a), hmem, Sym2.eq_swap⟩
  have hle : Nat.card (graphOf edges).edgeSet ≤ edges.length := by
    have hcard := Set.ncard_le_ncard hsub (Finset.finite_toSet _)
    rw [Set.ncard_coe_finset] at hcard
    calc Nat.card (graphOf edges).edgeSet ≤ _ := hcard
      _ ≤ (edges.map fun e => s(e.1, e.2)).length := toFinset_card_le _
      _ = edges.length := length_map _
  have hge := h.card_vert_le_card_edgeSet_add_one
  rw [← Nat.card_eq_fintype_card] at hlength
  omega

/-! ## The exchange -/

theorem forall_of_eqvGen {r : V → V → Prop} {P : V → Prop} (hr : ∀ a b, r a b → (P a ↔ P b)) {a b : V}
    (h : Relation.EqvGen r a b) : P a ↔ P b := by
  induction h with
  | rel a b hab => exact hr a b hab
  | refl a => exact Iff.rfl
  | symm a b _ ih => exact ih.symm
  | trans a b c _ _ ih ih' => exact ih.trans ih'

section Exchange

variable [DecidableEq V] {S : V → Prop} {u v : V} {edges : List (V × V)}

/-- Edges that join all vertices have an edge between a marked vertex and another, without which they still do so once
`v` is marked. -/
theorem exists_exchange (hu : S u) (hv : ¬ S v) (h : Joins S edges) :
    ∃ e ∈ edges, Divides S e ∧ Joins (fun x => x = v ∨ S x) (edges.erase e) := by
  -- what is joined to `v` without marked vertices
  let joined : V → V → Prop := Relation.EqvGen fun a b => (a, b) ∈ edges ∧ ¬ S a ∧ ¬ S b
  have hunmarked : ∀ x, joined v x → ¬ S x := by
    intro x hx
    have hstep : ∀ a b, (a, b) ∈ edges ∧ ¬ S a ∧ ¬ S b → (¬ S a ↔ ¬ S b) :=
      fun a b hab => iff_of_true hab.2.1 hab.2.2
    exact (forall_of_eqvGen hstep hx).mp hv
  obtain ⟨e, he, hdivides⟩ := h (joined v) (fun a b ha _ hjoined => absurd ha (hunmarked a hjoined)) v u
    (.refl v) fun hjoined => hunmarked u hjoined hu
  -- the end that is not joined to `v` is marked, since the edge would join it
  obtain ⟨a, b, ha, hb, hends⟩ : ∃ a b, joined v a ∧ S b ∧ (e = (a, b) ∨ e = (b, a)) := by
    rcases hdivides with ⟨hfirst, hsecond⟩ | ⟨hsecond, hfirst⟩
    · refine ⟨e.1, e.2, hfirst, ?_, .inl rfl⟩
      by_contra hmarked
      exact hsecond (.trans _ _ _ hfirst (.rel _ _ ⟨he, hunmarked _ hfirst, hmarked⟩))
    · refine ⟨e.2, e.1, hsecond, ?_, .inr rfl⟩
      by_contra hmarked
      exact hfirst (.trans _ _ _ hsecond (.symm _ _ (.rel _ _ ⟨he, hmarked, hunmarked _ hsecond⟩)))
  refine ⟨e, he, ?_, ?_⟩
  · rcases hends with rfl | rfl
    · exact .inr ⟨hb, hunmarked a ha⟩
    · exact .inl ⟨hb, hunmarked a ha⟩
  · intro P hP x y hx hy
    obtain ⟨f, hf, hfdivides⟩ := h P (fun c d hc hd => hP c d (.inr hc) (.inr hd)) x y hx hy
    by_cases hfe : f = e
    · -- the property tells `v` from the other end, so an edge on the way from `v` has it on one side
      subst hfe
      have hvb : P v ↔ P b := ⟨hP v b (.inl rfl) (.inr hb), hP b v (.inr hb) (.inl rfl)⟩
      have hab : ¬ (P v ↔ P a) := by
        rw [hvb]
        unfold Divides at hfdivides
        rcases hends with rfl | rfl
        · tauto
        · tauto
      by_contra hnone
      apply hab
      refine forall_of_eqvGen (fun c d hcd => ?_) ha
      by_contra hne
      have hmem : (c, d) ∈ edges.erase f := by
        refine (mem_erase_of_ne ?_).mpr hcd.1
        rintro rfl
        rcases hends with heq | heq
        · exact hcd.2.2 ((Prod.mk.inj heq).2 ▸ hb)
        · exact hcd.2.1 ((Prod.mk.inj heq).1 ▸ hb)
      refine hnone ⟨(c, d), hmem, ?_⟩
      unfold Divides
      tauto
    · exact ⟨f, (mem_erase_of_ne hfe).mpr hf, hfdivides⟩

end Exchange

/-! ## The edges of the algorithm -/

/-- The edges that are added while the marked vertices grow to all vertices. -/
inductive Grown [LE K] (weight : V → V → K) : (V → Prop) → List (V × V) → Prop
  | done {S : V → Prop} : (∀ v, S v) → Grown weight S []
  | step {S : V → Prop} {u v : V} {edges : List (V × V)} : S u → ¬ S v →
      (∀ a b, S a → ¬ S b → weight u v ≤ weight a b) → Grown weight (fun x => x = v ∨ S x) edges →
        Grown weight S ((u, v) :: edges)

theorem Grown.joins [LE K] {weight : V → V → K} {S : V → Prop} (h : Grown weight S edges) : Joins S edges := by
  induction h with
  | done hall => exact fun P hP a b ha hb => absurd (hP a b (hall a) (hall b) ha) hb
  | @step S u v edges hu hv _ _ ih =>
    intro P hP a b ha hb
    by_cases hiff : P u ↔ P v
    · -- the edge does not cross the division, so `v` is with the marked vertices
      have hnew : ∀ c d, (c = v ∨ S c) → (d = v ∨ S d) → P c → P d := by
        rintro c d (rfl | hc) (rfl | hd) hPc
        · exact hPc
        · exact hP u d hu hd (hiff.mpr hPc)
        · exact hiff.mp (hP c u hc hu hPc)
        · exact hP c d hc hd hPc
      obtain ⟨e, he, hdivides⟩ := ih P hnew a b ha hb
      exact ⟨e, mem_cons_of_mem _ he, hdivides⟩
    · refine ⟨(u, v), mem_cons_self, ?_⟩
      unfold Divides
      tauto

/-! ## Programs -/

/-- The pairs of indices that are the edges of a tree of all indices. -/
def IsSpanningTree (n : ℕ) (edges : List (ℕ × ℕ)) : Prop :=
  ∃ es : List (Fin n × Fin n), edges = es.map (fun e => (e.1.val, e.2.val)) ∧ es.length + 1 = n ∧ (graphOf es).IsTree

/-- The rounds of a program that marks the second end of the edge that it picks. -/
def rounds (pick : List Bool → Option (ℕ × ℕ)) : ℕ → List Bool → List (ℕ × ℕ)
  | 0, _ => []
  | k + 1, in_mst =>
    match pick in_mst with
    | none => []
    | some e => e :: rounds pick k (in_mst.set e.2 true)

/-- What a program must pick while some indices are marked and others are not. -/
def Picks [LE K] (n : ℕ) (weight : ℕ → ℕ → K) (pick : List Bool → Option (ℕ × ℕ)) : Prop :=
  ∀ in_mst : List Bool, in_mst.length = n → true ∈ in_mst → false ∈ in_mst →
    ∃ u v, pick in_mst = some (u, v) ∧ in_mst[u]? = some true ∧ in_mst[v]? = some false ∧
      ∀ a b, in_mst[a]? = some true → in_mst[b]? = some false → weight u v ≤ weight a b

section Weights

variable [AddCommMonoid K] [PartialOrder K] [IsOrderedAddMonoid K]

/-- **No edges that join all vertices weigh less**, if they are as many. -/
theorem Grown.sum_le [DecidableEq V] {weight : V → V → K} (hsymm : ∀ a b, weight a b = weight b a) {S : V → Prop}
    {edges : List (V × V)} (h : Grown weight S edges) {others : List (V × V)} (hjoins : Joins S others)
    (hlength : others.length = edges.length) :
    (edges.map fun e => weight e.1 e.2).sum ≤ (others.map fun e => weight e.1 e.2).sum := by
  induction h generalizing others with
  | done _ =>
    rw [length_eq_zero_iff.mp hlength]
  | @step S u v edges hu hv hleast _ ih =>
    obtain ⟨e, he, hdivides, hjoins'⟩ := exists_exchange hu hv hjoins
    have hweight : weight u v ≤ weight e.1 e.2 := by
      rcases hdivides with ⟨hfirst, hsecond⟩ | ⟨hsecond, hfirst⟩
      · exact hleast _ _ hfirst hsecond
      · exact (hleast _ _ hsecond hfirst).trans_eq (hsymm _ _)
    have hlength' : (others.erase e).length = edges.length := by
      rw [length_erase_of_mem he, hlength]
      rfl
    have hperm := (perm_cons_erase he).map fun e => weight e.1 e.2
    calc (((u, v) :: edges).map fun e => weight e.1 e.2).sum
        = weight u v + (edges.map fun e => weight e.1 e.2).sum := sum_cons
      _ ≤ weight e.1 e.2 + ((others.erase e).map fun e => weight e.1 e.2).sum :=
          add_le_add hweight (ih hjoins' hlength')
      _ = (others.map fun e => weight e.1 e.2).sum := (sum_cons.symm.trans hperm.sum_eq.symm)

/-! ## Rounds that grow a tree -/

omit [AddCommMonoid K] [IsOrderedAddMonoid K] in
theorem exists_grown {n : ℕ} {weight : ℕ → ℕ → K} {pick : List Bool → Option (ℕ × ℕ)} (h : Picks n weight pick)
    {k : ℕ} {in_mst : List Bool} (hlength : in_mst.length = n) (hcount : in_mst.count false = k)
    (hmarked : true ∈ in_mst) :
    ∃ es : List (Fin n × Fin n), rounds pick k in_mst = es.map (fun e => (e.1.val, e.2.val)) ∧ es.length = k ∧
      Grown (fun a b : Fin n => weight a b) (fun i : Fin n => in_mst[i.val]? = some true) es := by
  induction k generalizing in_mst with
  | zero =>
    refine ⟨[], rfl, rfl, .done fun i => ?_⟩
    have hi : i.val < in_mst.length := hlength ▸ i.isLt
    rw [getElem?_eq_getElem hi]
    cases hget : in_mst[i.val] with
    | true => rfl
    | false => exact absurd (hget ▸ getElem_mem hi) (count_eq_zero.mp hcount)
  | succ k ih =>
    have hfalse : false ∈ in_mst := count_pos_iff.mp (hcount ▸ Nat.succ_pos k)
    obtain ⟨u, v, hpick, hu, hv, hleast⟩ := h in_mst hlength hmarked hfalse
    obtain ⟨hun, -⟩ := List.getElem?_eq_some_iff.mp hu
    obtain ⟨hvn, hvfalse⟩ := List.getElem?_eq_some_iff.mp hv
    have hset : ∀ i, (in_mst.set v true)[i]? = some true ↔ i = v ∨ in_mst[i]? = some true := by
      intro i
      by_cases hi : v = i
      · subst hi
        rw [getElem?_set_self hvn]
        exact iff_of_true rfl (.inl rfl)
      · rw [getElem?_set_ne hi]
        exact (or_iff_right (Ne.symm hi)).symm
    have hcount' : (in_mst.set v true).count false = k := by
      rw [count_set hvn, hvfalse, hcount]
      simp
    obtain ⟨es, hrounds, heslength, hgrown⟩ := ih ((length_set).trans hlength) hcount'
      (mem_of_getElem? ((hset v).mpr (.inl rfl)))
    refine ⟨(⟨u, hlength ▸ hun⟩, ⟨v, hlength ▸ hvn⟩) :: es, ?_, congrArg (· + 1) heslength, ?_⟩
    · unfold rounds
      rw [hpick]
      exact congrArg ((u, v) :: ·) hrounds
    · refine .step hu (fun hmark => ?_) (fun a b ha hb => ?_) ?_
      · cases hv.symm.trans hmark
      · have hbn : b.val < in_mst.length := hlength ▸ b.isLt
        refine hleast a b ha ?_
        rw [getElem?_eq_getElem hbn] at hb ⊢
        cases hget : in_mst[b.val] with
        | true => exact absurd (congrArg some hget) hb
        | false => rfl
      · have hS : (fun i : Fin n => (in_mst.set v true)[i.val]? = some true) =
            fun x : Fin n => x = ⟨v, hlength ▸ hvn⟩ ∨ in_mst[x.val]? = some true := by
          funext i
          rw [hset, Fin.ext_iff]
        exact hS ▸ hgrown

/-- **A program that picks edges of the least weight** has the edges of a tree of all indices, and no such tree weighs
less. -/
theorem isMinimal_rounds {n : ℕ} (hn : 0 < n) {weight : ℕ → ℕ → K} (hsymm : ∀ a b, weight a b = weight b a)
    {pick : List Bool → Option (ℕ × ℕ)} (h : Picks n weight pick) :
    IsSpanningTree n (rounds pick (n - 1) ((replicate n false).set 0 true)) ∧
      ∀ edges, IsSpanningTree n edges →
        ((rounds pick (n - 1) ((replicate n false).set 0 true)).map fun e => weight e.1 e.2).sum ≤
          (edges.map fun e => weight e.1 e.2).sum := by
  have hzero : ((replicate n false).set 0 true)[0]? = some true :=
    getElem?_set_self (by rw [length_replicate]; exact hn)
  have hcount : ((replicate n false).set 0 true).count false = n - 1 := by
    rw [count_set (by rw [length_replicate]; exact hn)]
    simp
  obtain ⟨es, hrounds, hlength, hgrown⟩ := exists_grown h (by rw [length_set, length_replicate]) hcount
    (mem_of_getElem? hzero)
  have hone : ∀ a b : Fin n, ((replicate n false).set 0 true)[a.val]? = some true →
      ((replicate n false).set 0 true)[b.val]? = some true → a = b := by
    have hmark : ∀ a : Fin n, ((replicate n false).set 0 true)[a.val]? = some true → a.val = 0 := by
      intro a ha
      by_contra hne
      rw [getElem?_set_ne (Ne.symm hne)] at ha
      have hmem := mem_of_getElem? ha
      rw [mem_replicate] at hmem
      cases hmem.2
    exact fun a b ha hb => Fin.ext ((hmark a ha).trans (hmark b hb).symm)
  have hlength' : es.length + 1 = n := by omega
  have hnonempty : Nonempty (Fin n) := ⟨⟨0, hn⟩⟩
  have htree : (graphOf es).IsTree :=
    isTree_of_connected (connected_of_joins hone hgrown.joins) (by rw [hlength', Fintype.card_fin])
  refine ⟨⟨es, hrounds, hlength', htree⟩, ?_⟩
  rintro _ ⟨others, rfl, hothers, htree'⟩
  rw [hrounds, map_map, map_map]
  have hsymm' : ∀ a b : Fin n, (fun a b : Fin n => weight a b) a b = (fun a b : Fin n => weight a b) b a :=
    fun a b => hsymm a b
  have hsame : others.length = es.length := by omega
  exact Grown.sum_le hsymm' hgrown (joins_of_connected htree'.connected _) hsame

end Weights

/-! ## Edges of the least weight -/

section Candidates

variable {α : Type} {dist : α → α → K} {points : List α} {in_mst : List Bool}

/-- The edges from a marked point to another with their weights, as two loops find them. -/
def crossing (dist : α → α → K) (points : List α) (in_mst : List Bool) : List (K × ℕ × ℕ) :=
  let marked := (points.zip in_mst).zipIdx
  (marked.filter fun source => source.1.2).flatMap fun source =>
    (marked.filter fun target => !target.1.2).map fun target => (dist source.1.1 target.1.1, source.2, target.2)

theorem mem_marked {m : (α × Bool) × ℕ} :
    m ∈ (points.zip in_mst).zipIdx ↔ points[m.2]? = some m.1.1 ∧ in_mst[m.2]? = some m.1.2 := by
  obtain ⟨⟨p, b⟩, i⟩ := m
  rw [mk_mem_zipIdx_iff_getElem?, getElem?_zip_eq_some]

theorem mem_crossing {d : K} {i j : ℕ} :
    (d, i, j) ∈ crossing dist points in_mst ↔
      ∃ p q, points[i]? = some p ∧ points[j]? = some q ∧ in_mst[i]? = some true ∧ in_mst[j]? = some false ∧
        d = dist p q := by
  simp only [crossing, mem_flatMap, mem_map, mem_filter, mem_marked, Bool.not_eq_true', Prod.mk.injEq]
  constructor
  · rintro ⟨⟨⟨p, b⟩, i⟩, ⟨⟨hp, hi⟩, rfl⟩, ⟨⟨q, c⟩, j⟩, ⟨⟨hq, hj⟩, rfl⟩, rfl, rfl, rfl⟩
    exact ⟨p, q, hp, hq, hi, hj, rfl⟩
  · rintro ⟨p, q, hp, hq, hi, hj, rfl⟩
    exact ⟨((p, true), i), ⟨⟨hp, hi⟩, rfl⟩, ((q, false), j), ⟨⟨hq, hj⟩, rfl⟩, rfl, rfl, rfl⟩

def weightOf [Zero K] (dist : α → α → K) (points : List α) (i j : ℕ) : K :=
  match points[i]?, points[j]? with
  | some p, some q => dist p q
  | _, _ => 0

theorem weightOf_of_getElem [Zero K] {i j : ℕ} {p q : α} (hp : points[i]? = some p) (hq : points[j]? = some q) :
    weightOf dist points i j = dist p q := by
  rw [weightOf, hp, hq]

theorem weightOf_comm [Zero K] (hdist : ∀ p q, dist p q = dist q p) (i j : ℕ) :
    weightOf dist points i j = weightOf dist points j i := by
  unfold weightOf
  cases points[i]? with
  | none =>
    cases points[j]? with
    | none => rfl
    | some q => rfl
  | some p =>
    cases points[j]? with
    | none => rfl
    | some q => exact hdist p q

theorem crossing_ne_nil (hlength : points.length = in_mst.length) (htrue : true ∈ in_mst) (hfalse : false ∈ in_mst) :
    crossing dist points in_mst ≠ [] := by
  obtain ⟨i, hi, htrue⟩ := getElem_of_mem htrue
  obtain ⟨j, hj, hfalse⟩ := getElem_of_mem hfalse
  have hpi := getElem?_eq_getElem (hlength ▸ hi : i < points.length)
  have hpj := getElem?_eq_getElem (hlength ▸ hj : j < points.length)
  have hmem : (dist _ _, i, j) ∈ crossing dist points in_mst :=
    mem_crossing.mpr ⟨_, _, hpi, hpj, (getElem?_eq_getElem hi).trans (congrArg some htrue),
      (getElem?_eq_getElem hj).trans (congrArg some hfalse), rfl⟩
  exact ne_nil_of_mem hmem

theorem picks_of_least [Zero K] [LE K] {pick : List Bool → Option (ℕ × ℕ)}
    (h : ∀ in_mst : List Bool, in_mst.length = points.length → true ∈ in_mst → false ∈ in_mst →
      ∃ c ∈ crossing dist points in_mst, pick in_mst = some c.2 ∧ ∀ d ∈ crossing dist points in_mst, c.1 ≤ d.1) :
    Picks points.length (weightOf dist points) pick := by
  intro in_mst hlength htrue hfalse
  obtain ⟨⟨d, u, v⟩, hmem, hpick, hleast⟩ := h in_mst hlength htrue hfalse
  obtain ⟨p, q, hp, hq, hu, hv, rfl⟩ := mem_crossing.mp hmem
  refine ⟨u, v, hpick, hu, hv, fun a b ha hb => ?_⟩
  have ha' : a < points.length := hlength ▸ (List.getElem?_eq_some_iff.mp ha).1
  have hb' : b < points.length := hlength ▸ (List.getElem?_eq_some_iff.mp hb).1
  have hpa := getElem?_eq_getElem ha'
  have hpb := getElem?_eq_getElem hb'
  rw [weightOf_of_getElem hp hq, weightOf_of_getElem hpa hpb]
  exact hleast (_, a, b) (mem_crossing.mpr ⟨_, _, hpa, hpb, ha, hb, rfl⟩)

/-- The edge with the smaller weight, and the first of two with one weight. -/
def nearer [LT K] [DecidableLT K] (best candidate : K × ℕ × ℕ) : K × ℕ × ℕ :=
  if candidate.1 < best.1 then candidate else best

variable [LinearOrder K]

theorem foldl_nearer_mem (best : K × ℕ × ℕ) (candidates : List (K × ℕ × ℕ)) :
    candidates.foldl nearer best ∈ best :: candidates := by
  induction candidates generalizing best with
  | nil => exact mem_cons_self
  | cons candidate candidates ih =>
    rw [foldl_cons]
    rcases mem_cons.mp (ih (nearer best candidate)) with hbest | hmem
    · rw [hbest, nearer]
      split
      · exact mem_cons_of_mem _ mem_cons_self
      · exact mem_cons_self
    · exact mem_cons_of_mem _ (mem_cons_of_mem _ hmem)

theorem foldl_nearer_le (best : K × ℕ × ℕ) (candidates : List (K × ℕ × ℕ)) :
    ∀ c ∈ best :: candidates, (candidates.foldl nearer best).1 ≤ c.1 := by
  induction candidates generalizing best with
  | nil =>
    intro c hc
    rw [mem_singleton.mp hc]
    exact le_rfl
  | cons candidate candidates ih =>
    have hnearer : (nearer best candidate).1 ≤ best.1 ∧ (nearer best candidate).1 ≤ candidate.1 := by
      unfold nearer
      split
      next hlt => exact ⟨hlt.le, le_rfl⟩
      next hlt => exact ⟨le_rfl, not_lt.mp hlt⟩
    have hbest := ih (nearer best candidate) _ mem_cons_self
    intro c hc
    rw [foldl_cons]
    rcases mem_cons.mp hc with rfl | hc
    · exact hbest.trans hnearer.1
    · rcases mem_cons.mp hc with rfl | hc
      · exact hbest.trans hnearer.2
      · exact ih _ c (mem_cons_of_mem _ hc)

end Candidates

end Prim
