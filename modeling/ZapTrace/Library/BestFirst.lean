import Mathlib.Logic.Relation
import Mathlib.Order.Basic

/-!
# Searches with a frontier

A search keeps opened nodes, which it still has to look at, and closed nodes, whose children it has opened. It may throw
a node away when a better one is opened or closed: one from which whatever can be reached is reached at least as well.

Every node that can be reached from the start is then covered: either a better node is closed, or on the way to it there
is a node for which a better one is still opened. When nothing is opened the search is complete. When the least of the
opened nodes is always looked at first, no node that is still missing can be reached with less.

## Main results

* `BestFirst.Covered.skip`, `BestFirst.Covered.expand`: the two steps of a search keep the invariant
* `BestFirst.Covered.frontier`: what is covered
* `BestFirst.Covered.reached_of_empty`: completeness
* `BestFirst.Covered.le_of_least`: optimality
-/

namespace BestFirst

open List

variable {ν : Type}

/-- A relation between nodes such that the children of a better node are better. -/
structure Dominance (Child better : ν → ν → Prop) : Prop where
  refl : ∀ n, better n n
  trans : ∀ {l m n}, better l m → better m n → better l n
  child : ∀ {m n n'}, better m n → Child n n' → ∃ m', Child m m' ∧ better m' n'

def Reached (better : ν → ν → Prop) (nodes : List ν) (n : ν) : Prop := ∃ m ∈ nodes, better m n

/-- The start is reached, and so is every child of a closed node. -/
structure Covered (Child better : ν → ν → Prop) (start : ν) (opened closed : List ν) : Prop where
  start : Reached better (opened ++ closed) start
  child : ∀ n ∈ closed, ∀ n', Child n n' → Reached better (opened ++ closed) n'

variable {Child better : ν → ν → Prop} {start c : ν} {opened opened' rest closed : List ν}

theorem Reached.mono {nodes nodes' : List ν} {n : ν} (h : Reached better nodes n)
    (hsub : ∀ m ∈ nodes, m ∈ nodes') : Reached better nodes' n :=
  h.imp fun m hm => ⟨hsub m hm.1, hm.2⟩

theorem Reached.through (hd : Dominance Child better) {nodes nodes' : List ν} {n : ν} (h : Reached better nodes n)
    (hreach : ∀ m ∈ nodes, Reached better nodes' m) : Reached better nodes' n := by
  obtain ⟨m, hm, hmn⟩ := h
  obtain ⟨l, hl, hlm⟩ := hreach m hm
  exact ⟨l, hl, hd.trans hlm hmn⟩

/-! ## Steps -/

theorem Covered.initial (hd : Dominance Child better) (start : ν) : Covered Child better start [start] [] where
  start := ⟨start, mem_singleton_self start, hd.refl start⟩
  child := fun _ hn => absurd hn not_mem_nil

/-- **A node is thrown away** when a closed one is better. -/
theorem Covered.skip (hd : Dominance Child better) (h : Covered Child better start opened closed)
    (hpop : ∀ n, n ∈ opened → n = c ∨ n ∈ rest) (hclosed : Reached better closed c) :
    Covered Child better start rest closed := by
  have hall : ∀ m ∈ opened ++ closed, Reached better (rest ++ closed) m := by
    intro m hm
    rcases mem_append.mp hm with hm | hm
    · rcases hpop m hm with rfl | hm
      · exact hclosed.mono fun _ => mem_append_right rest
      · exact ⟨m, mem_append_left closed hm, hd.refl m⟩
    · exact ⟨m, mem_append_right rest hm, hd.refl m⟩
  exact ⟨h.start.through hd hall, fun n hn n' hchild => (h.child n hn n' hchild).through hd hall⟩

/-- **A node is closed** when its children are reached. -/
theorem Covered.expand (hd : Dominance Child better) (h : Covered Child better start opened closed)
    (hpop : ∀ n, n ∈ opened → n = c ∨ n ∈ rest) (hrest : ∀ n ∈ rest, n ∈ opened')
    (hchild : ∀ n', Child c n' → Reached better (opened' ++ c :: closed) n') :
    Covered Child better start opened' (c :: closed) := by
  have hall : ∀ m ∈ opened ++ closed, Reached better (opened' ++ c :: closed) m := by
    intro m hm
    refine ⟨m, ?_, hd.refl m⟩
    rcases mem_append.mp hm with hm | hm
    · rcases hpop m hm with rfl | hm
      · exact mem_append_right opened' mem_cons_self
      · exact mem_append_left _ (hrest m hm)
    · exact mem_append_right opened' (mem_cons_of_mem c hm)
  refine ⟨h.start.through hd hall, fun n hn n' hn' => ?_⟩
  rcases mem_cons.mp hn with rfl | hn
  · exact hchild n' hn'
  · exact (h.child n hn n' hn').through hd hall

/-! ## What is covered -/

/-- **The frontier** lies on the way to every node for which no better one is closed. -/
theorem Covered.frontier (hd : Dominance Child better) (h : Covered Child better start opened closed) {goal : ν}
    (hreach : Relation.ReflTransGen Child start goal) :
    (∃ n, Relation.ReflTransGen Child n goal ∧ Reached better opened n) ∨ Reached better closed goal := by
  induction hreach with
  | refl =>
    obtain ⟨m, hm, hbetter⟩ := h.start
    rcases mem_append.mp hm with hm | hm
    · exact .inl ⟨start, .refl, m, hm, hbetter⟩
    · exact .inr ⟨m, hm, hbetter⟩
  | @tail n n' _ hchild ih =>
    rcases ih with ⟨l, hl, hopened⟩ | ⟨m, hm, hbetter⟩
    · exact .inl ⟨l, hl.tail hchild, hopened⟩
    · -- a closed node is better than `n`, so one of its children is better than `n'`
      obtain ⟨m', hm', hbetter'⟩ := hd.child hbetter hchild
      obtain ⟨l, hl, hlm⟩ := h.child m hm m' hm'
      rcases mem_append.mp hl with hl | hl
      · exact .inl ⟨n', .refl, l, hl, hd.trans hlm hbetter'⟩
      · exact .inr ⟨l, hl, hd.trans hlm hbetter'⟩

/-- **Completeness**: when nothing is opened, all that can be reached is closed. -/
theorem Covered.reached_of_empty (hd : Dominance Child better) (h : Covered Child better start [] closed) {goal : ν}
    (hreach : Relation.ReflTransGen Child start goal) : Reached better closed goal := by
  rcases h.frontier hd hreach with ⟨_, _, _, hm, _⟩ | hclosed
  · exact absurd hm not_mem_nil
  · exact hclosed

/-- **Optimality**: when a node has the least estimate of all that are opened, and estimates do not decrease towards
children, then no node has less that no closed one is better than. -/
theorem Covered.le_of_least {K : Type} [Preorder K] {estimate : ν → K} (hd : Dominance Child better)
    (h : Covered Child better start opened closed) (hchild : ∀ n n', Child n n' → estimate n ≤ estimate n')
    (hbetter : ∀ m n, better m n → estimate m ≤ estimate n) (hleast : ∀ m ∈ opened, estimate c ≤ estimate m) {goal : ν}
    (hreach : Relation.ReflTransGen Child start goal) (hopen : ¬ Reached better closed goal) :
    estimate c ≤ estimate goal := by
  rcases h.frontier hd hreach with ⟨n, hn, m, hm, hmn⟩ | hclosed
  · have hgoal : estimate n ≤ estimate goal := by
      clear hmn hreach hopen
      induction hn with
      | refl => exact le_refl _
      | tail _ hstep ih => exact ih.trans (hchild _ _ hstep)
    calc estimate c ≤ estimate m := hleast m hm
      _ ≤ estimate n := hbetter m n hmn
      _ ≤ estimate goal := hgoal
  · exact absurd hclosed hopen

end BestFirst
