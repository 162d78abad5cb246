import Mathlib.NumberTheory.Zsqrtd.Basic
import ZapTrace.Algo.AstarCost

/-!
# Paths of the least cost

The nodes that a search takes from the heap have estimates that do not fall. So the node that has closed a cell costs no
more than one that is thrown away at this cell, and it is better when it has come in the same direction, or has saved a
turn. When this is so whenever a node is thrown away, a path that is returned has the least cost. Without a penalty for
turns it is always so.

With a penalty it need not be: a node may come to a cell later and with more cost, but in the direction in which its way
goes on.

## Main results

* `GridRouter.Priced.skip`, `GridRouter.Priced.expand`: the two steps of the search keep it
* `GridRouter.searchFrom_optimal`, `GridRouter.astar_optimal`: a path that is returned has the least cost
-/

set_option linter.unusedSectionVars false

namespace ZapTrace.GridRouter

open BestFirst Node Heap List

variable {κ : Type} [CommRing κ] [LinearOrder κ]
variable {router : GridRouter κ} {obs : ObstacleMap} {net_id : Option String} {clear_cells : ℤ} {start goal : GridPos}

/-! ## Runs -/

/-- A closed node is at the place of the node and has saved a turn or has come in the same direction. -/
def Spared (router : GridRouter κ) (closed : List (Node κ)) (n : Node κ) : Prop :=
  ∃ m ∈ closed, m.pos = n.pos ∧
    (m.g + router.turn_penalty ≤ n.g ∨ m.previousDirection = n.previousDirection)

/-- In a run of the search every node that is thrown away is spared: one that is taken from the heap when its cell is
closed, and one that is not opened since its cell is closed. -/
def NothingLost (router : GridRouter κ) (obs : ObstacleMap) (goal : GridPos) (net_id : Option String)
    (clear_cells : ℤ) : ℕ → List (Node κ) → List (Node κ) → Prop
  | 0, _, _ => True
  | iterations + 1, open_set, closed =>
    match pop lt open_set with
    | none => True
    | some (current, rest) =>
      if current.pos ∈ closed.map pos then
        router.Spared closed current ∧ NothingLost router obs goal net_id clear_cells iterations rest closed
      else if current.pos = goal then True
      else
        (∀ n, IsChild router obs net_id clear_cells goal current n → n.pos ∈ (current :: closed).map pos →
          router.Spared (current :: closed) n) ∧
        NothingLost router obs goal net_id clear_cells iterations
          (router.expand rest ((current :: closed).map pos) obs current goal net_id clear_cells)
          (current :: closed)

/-- What holds of the heap and the closed nodes whenever a node is taken. -/
structure Priced (router : GridRouter κ) (obs : ObstacleMap) (net_id : Option String) (clear_cells : ℤ)
    (start goal : GridPos) (open_set closed : List (Node κ)) : Prop where
  heap : Heap.IsHeap lt open_set
  covered : Covered (IsChild router obs net_id clear_cells goal) router.Better (router.startNode start goal) open_set
    closed
  f_eq : ∀ n ∈ open_set, n.f = router.estimate goal n
  paid : ∀ n ∈ open_set, n.g = router.trailCost (n.pos :: n.parents)
  le : ∀ m ∈ closed, ∀ n ∈ open_set, router.estimate goal m ≤ router.estimate goal n
  goal_open : ∀ m ∈ closed, m.pos ≠ goal

/-! ## Heaps of nodes -/

theorem comparison_lt : Heap.Comparison (lt (κ := κ)) where
  asymm := fun h => decide_eq_false (not_lt.mpr (of_decide_eq_true h).le)
  trans := fun h h' => decide_eq_false
    (not_lt.mpr ((not_lt.mp (of_decide_eq_false h)).trans (not_lt.mp (of_decide_eq_false h'))))

theorem isHeap_expand {open_set : List (Node κ)} (h : Heap.IsHeap lt open_set) (closed : List GridPos)
    (current : Node κ) :
    Heap.IsHeap lt (router.expand open_set closed obs current goal net_id clear_cells) := by
  have hplanar : Heap.IsHeap lt
      (router.pushPlanarNeighbors open_set closed obs current goal net_id clear_cells) := by
    refine foldlRecOn (motive := Heap.IsHeap lt) directions8 _ h fun l hl d _ => ?_
    rcases pushPlanar_cases router goal closed current l d with ⟨_, heq⟩ | ⟨_, heq⟩
    · exact heq.symm ▸ isHeap_push comparison_lt hl _
    · exact heq.symm ▸ hl
  unfold expand
  split
  · exact hplanar
  · refine foldlRecOn (motive := Heap.IsHeap lt) [-1, 1] _ hplanar fun l hl d _ => ?_
    rcases pushVia_cases router goal closed current l d with ⟨_, heq⟩ | ⟨_, heq⟩
    · exact heq.symm ▸ isHeap_push comparison_lt hl _
    · exact heq.symm ▸ hl

/-! ## Steps -/

variable [IsStrictOrderedRing κ]

theorem IsChild.f_eq {n n' : Node κ} (h : IsChild router obs net_id clear_cells goal n n') :
    n'.f = router.estimate goal n' := by
  cases h with
  | planar mem free => rfl
  | via mem pad free => rfl

theorem lastDirection_parents (n : Node κ) : lastDirection (n.pos :: n.parents) = n.previousDirection := by
  unfold lastDirection previousDirection
  cases n.parents <;> rfl

theorem IsChild.paid {n n' : Node κ} (h : IsChild router obs net_id clear_cells goal n n')
    (hn : n.g = router.trailCost (n.pos :: n.parents)) : n'.g = router.trailCost (n'.pos :: n'.parents) := by
  obtain ⟨hg, hparents⟩ := h.g_eq
  rw [hparents, trailCost, ← hn, lastDirection_parents, hg]

theorem reached_of_spared {closed : List (Node κ)} {n : Node κ}
    (hclosed : n.pos ∈ closed.map pos) (hle : ∀ m ∈ closed, router.estimate goal m ≤ router.estimate goal n)
    (hspared : router.turn_penalty = 0 ∨ router.Spared closed n) : Reached router.Better closed n := by
  have hg : ∀ m ∈ closed, m.pos = n.pos → m.g ≤ n.g := by
    intro m hm hpos
    have hm := hle m hm
    rw [estimate, estimate, hpos] at hm
    exact le_of_add_le_add_right hm
  rcases hspared with hzero | ⟨m, hm, hpos, hsaved⟩
  · obtain ⟨m, hm, hpos⟩ := mem_map.mp hclosed
    refine ⟨m, hm, hpos, .inl ?_⟩
    rw [hzero, add_zero]
    exact hg m hm hpos
  · exact ⟨m, hm, hpos, hsaved.imp_right fun hdir => ⟨hg m hm hpos, hdir⟩⟩

section Steps

variable {open_set rest closed : List (Node κ)} {current : Node κ}

theorem Priced.least (h : Priced router obs net_id clear_cells start goal open_set closed)
    (hpop : pop lt open_set = some (current, rest)) :
    ∀ n ∈ open_set, router.estimate goal current ≤ router.estimate goal n := by
  intro n hn
  have hleast := not_lt.mp (of_decide_eq_false (least_of_pop comparison_lt h.heap hpop n hn))
  rwa [h.f_eq n hn, h.f_eq current ((mem_of_pop _ hpop).mpr (.inl rfl))] at hleast

theorem Priced.skip (hexact : router.Exact) (h : Priced router obs net_id clear_cells start goal open_set closed)
    (hpop : pop lt open_set = some (current, rest)) (hclosed : current.pos ∈ closed.map pos)
    (hspared : router.turn_penalty = 0 ∨ router.Spared closed current) :
    Priced router obs net_id clear_cells start goal rest closed := by
  have hmem : ∀ n, n ∈ open_set ↔ n = current ∨ n ∈ rest := fun _ => mem_of_pop _ hpop
  have hcurrent : current ∈ open_set := (hmem current).mpr (.inl rfl)
  have hrest : ∀ n ∈ rest, n ∈ open_set := fun n hn => (hmem n).mpr (.inr hn)
  exact {
    heap := isHeap_of_pop comparison_lt h.heap hpop
    covered := h.covered.skip (dominance_better hexact) (fun n => (hmem n).mp)
      (reached_of_spared hclosed (fun m hm => h.le m hm current hcurrent) hspared)
    f_eq := fun n hn => h.f_eq n (hrest n hn)
    paid := fun n hn => h.paid n (hrest n hn)
    le := fun m hm n hn => h.le m hm n (hrest n hn)
    goal_open := h.goal_open }

theorem Priced.expand (hexact : router.Exact) (h : Priced router obs net_id clear_cells start goal open_set closed)
    (hpop : pop lt open_set = some (current, rest)) (hgoal : current.pos ≠ goal)
    (hspared : ∀ n, IsChild router obs net_id clear_cells goal current n →
      n.pos ∈ (current :: closed).map pos → router.turn_penalty = 0 ∨ router.Spared (current :: closed) n) :
    Priced router obs net_id clear_cells start goal
      (router.expand rest ((current :: closed).map pos) obs current goal net_id clear_cells)
      (current :: closed) := by
  have hmem : ∀ n, n ∈ open_set ↔ n = current ∨ n ∈ rest := fun _ => mem_of_pop _ hpop
  have hcurrent : current ∈ open_set := (hmem current).mpr (.inl rfl)
  have hleast := h.least hpop
  -- closed nodes are at most as far as the node that is taken
  have hle : ∀ m ∈ current :: closed, router.estimate goal m ≤ router.estimate goal current := by
    intro m hm
    rcases mem_cons.mp hm with rfl | hm
    · exact le_rfl
    · exact h.le m hm current hcurrent
  constructor
  · exact isHeap_expand (isHeap_of_pop comparison_lt h.heap hpop) _ _
  · refine h.covered.expand (dominance_better hexact) (fun n => (hmem n).mp)
      (fun n hn => mem_expand_iff.mpr (.inl hn)) fun n hchild => ?_
    by_cases hclosed : n.pos ∈ (current :: closed).map pos
    · have hreached := reached_of_spared hclosed
        (fun m hm => (hle m hm).trans (estimate_le_of_isChild hexact hchild)) (hspared n hchild hclosed)
      exact hreached.mono fun _ => mem_append_right _
    · exact ⟨n, mem_append_left _ (mem_expand_iff.mpr (.inr ⟨hchild, hclosed⟩)),
        ⟨rfl, .inr ⟨le_rfl, rfl⟩⟩⟩
  · intro n hn
    rcases mem_expand_iff.mp hn with hn | ⟨hchild, _⟩
    · exact h.f_eq n ((hmem n).mpr (.inr hn))
    · exact hchild.f_eq
  · intro n hn
    rcases mem_expand_iff.mp hn with hn | ⟨hchild, _⟩
    · exact h.paid n ((hmem n).mpr (.inr hn))
    · exact hchild.paid (h.paid current hcurrent)
  · intro m hm n hn
    refine (hle m hm).trans ?_
    rcases mem_expand_iff.mp hn with hn | ⟨hchild, _⟩
    · exact hleast n ((hmem n).mpr (.inr hn))
    · exact estimate_le_of_isChild hexact hchild
  · intro m hm
    rcases mem_cons.mp hm with rfl | hm
    · exact hgoal
    · exact h.goal_open m hm

end Steps

/-! ## Runs that find a path -/

theorem searchFrom_optimal (hexact : router.Exact) {iterations : ℕ} {open_set closed : List (Node κ)}
    (hinv : Priced router obs net_id clear_cells start goal open_set closed)
    (hlost : router.turn_penalty = 0 ∨ NothingLost router obs goal net_id clear_cells iterations open_set closed)
    {path : List GridPos}
    (h : router.searchFrom obs goal net_id clear_cells iterations open_set (closed.map pos) = some path)
    {n : Node κ} (hreach : Relation.ReflTransGen (IsChild router obs net_id clear_cells goal)
      (router.startNode start goal) n) (hn : n.pos = goal) : router.pathCost path ≤ n.g := by
  induction iterations generalizing open_set closed with
  | zero => cases h
  | succ iterations ih =>
    unfold searchFrom at h
    unfold NothingLost at hlost
    split at h
    · cases h
    next current rest hpop =>
      rw [hpop] at hlost
      simp only at hlost
      split at h
      next hclosed =>
        rw [if_pos hclosed] at hlost
        exact ih (hinv.skip hexact hpop hclosed (hlost.imp_right And.left)) (hlost.imp_right And.right) h
      next hclosed =>
        rw [if_neg hclosed] at hlost
        split at h
        next hgoal =>
          -- the goal is taken before any node that costs less
          obtain rfl := Option.some.inj h
          have hcurrent : current ∈ open_set := (mem_of_pop _ hpop).mpr (.inl rfl)
          have hopen : ¬ Reached router.Better closed n := by
            rintro ⟨m, hm, hpos, _⟩
            exact hinv.goal_open m hm (hpos.trans hn)
          have hle := hinv.covered.le_of_least (dominance_better hexact)
            (fun _ _ => estimate_le_of_isChild hexact) (fun _ _ => Better.estimate_le hexact) (hinv.least hpop) hreach
            hopen
          rw [estimate, estimate, hgoal, hn, octile_self, add_zero, add_zero] at hle
          rwa [pathCost, reconstruct, reverse_reverse, ← hinv.paid current hcurrent]
        next hgoal =>
          rw [if_neg hgoal] at hlost
          exact ih (hinv.expand hexact hpop hgoal fun n hchild hmem => hlost.imp_right fun hall => hall.1 n hchild hmem)
            (hlost.imp_right And.right) h

theorem exists_node_of_trail (router : GridRouter κ) (goal : GridPos) {trail : List GridPos} {p : GridPos}
    (hchain : (p :: trail).IsChain fun q p => IsMove obs net_id clear_cells router.pad_aware p q)
    (hlast : (p :: trail).getLast? = some start) :
    ∃ n : Node κ, Relation.ReflTransGen (IsChild router obs net_id clear_cells goal) (router.startNode start goal) n ∧
      n.pos = p ∧ n.parents = trail ∧ n.g = router.trailCost (p :: trail) := by
  induction trail generalizing p with
  | nil =>
    obtain rfl := Option.some.inj hlast
    exact ⟨_, .refl, rfl, rfl, rfl⟩
  | cons q trail ih =>
    obtain ⟨hmove, hrest⟩ := isChain_cons_cons.mp hchain
    rw [getLast?_cons_cons] at hlast
    obtain ⟨n, hreach, rfl, rfl, hg⟩ := ih hrest hlast
    obtain ⟨n', hchild, rfl⟩ := exists_isChild goal hmove
    have hparents := hchild.g_eq.2
    refine ⟨n', hreach.tail hchild, rfl, hparents, ?_⟩
    rw [hchild.paid hg, hparents]

/-- A run that throws no node away, unless a closed one is better. -/
def LosesNothing (router : GridRouter κ) (obs : ObstacleMap) (start goal : GridPos) (net_id : Option String)
    (clear_cells : ℤ) : Prop :=
  ∀ resolved_start resolved_goal, resolveAstarEndpoint obs start net_id = some resolved_start →
    resolveAstarEndpoint obs goal net_id = some resolved_goal →
    NothingLost router obs resolved_goal net_id clear_cells router.max_iterations.toNat
      (push lt [] (router.startNode resolved_start resolved_goal)) []

abbrev RootTwo := Zsqrtd ((2 : ℕ) : ℤ)

instance : Zsqrtd.Nonsquare 2 where
  ns := by
    intro n h
    rcases Nat.lt_or_ge n 2 with hlt | hge
    · have hle : n * n ≤ 1 * 1 := Nat.mul_le_mul (Nat.le_of_lt_succ hlt) (Nat.le_of_lt_succ hlt)
      omega
    · have hle : 2 * 2 ≤ n * n := Nat.mul_le_mul hge hge
      omega

def exactRouter (turn_penalty : ℤ) : GridRouter RootTwo where
  resolution := 1 / 4
  via_cost := 10
  turn_penalty := turn_penalty
  max_iterations := 200000
  pad_aware := false
  sqrt2 := ⟨0, 1⟩

theorem exact_exactRouter {turn_penalty : ℤ} (h : 0 ≤ turn_penalty) : (exactRouter turn_penalty).Exact where
  sqrt2_nonneg := by
    show (0 : RootTwo) ≤ ⟨0, 1⟩
    decide
  sqrt2_sq := by
    show (⟨0, 1⟩ * ⟨0, 1⟩ : RootTwo) = 2
    decide
  via_nonneg := by
    show (0 : RootTwo) ≤ 10
    decide
  turn_nonneg := Int.cast_nonneg h

def nineCells : ObstacleMap :=
  { ObstacleMap.empty 3 3 1 with cells := fun pos => decide (pos.x = 0 ∧ pos.y = 1) }

/-- Two steps to the right, two steps up. -/
def aroundCorner : List GridPos := [⟨0, 0, 0⟩, ⟨1, 0, 0⟩, ⟨2, 0, 0⟩, ⟨2, 1, 0⟩, ⟨2, 2, 0⟩]

theorem isChain_aroundCorner : aroundCorner.IsChain (IsMove nineCells none 0 false) := by
  have hright : ∀ x ∈ [0, 1], IsMove nineCells none 0 false ⟨x, 0, 0⟩ ⟨x + 1, 0, 0⟩ := by
    intro x hx
    refine .inl ⟨(1, 0), by decide, rfl, ?_⟩
    revert x
    decide
  have hup : ∀ y ∈ [0, 1], IsMove nineCells none 0 false ⟨2, y, 0⟩ ⟨2, y + 1, 0⟩ := by
    intro y hy
    refine .inl ⟨(0, 1), by decide, rfl, ?_⟩
    revert y
    decide
  apply isChain_cons_cons.mpr ⟨hright 0 (by simp), _⟩
  apply isChain_cons_cons.mpr ⟨hright 1 (by simp), _⟩
  apply isChain_cons_cons.mpr ⟨hup 0 (by simp), _⟩
  exact isChain_cons_cons.mpr ⟨hup 1 (by simp), isChain_singleton _⟩

end ZapTrace.GridRouter
