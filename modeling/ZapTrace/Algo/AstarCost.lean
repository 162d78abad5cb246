import Mathlib.Algebra.Order.Ring.Cast
import Mathlib.Tactic.Linarith
import ZapTrace.Algo.AstarSearch
import ZapTrace.Library.HeapOrder

/-!
# The cost of a path

Costs are exact numbers here: the router's `sqrt2` is a root of two. The octile distance falls by no more than the cost
of a step, whether the step turns or not, so the estimate of a node, its cost and the distance to the goal, does not
fall towards the nodes of the moves from it. The search looks at nodes in the order of their estimates. So when it
returns a path, all nodes that cost less in the end must have been thrown away.

It throws a node away when its cell is closed. The node that has closed the cell costs no more, but it may have come in
another direction, and then the next step may cost it a turn that the other one is spared.

## Main results

* `GridRouter.estimate_le_of_isChild`: the estimates are consistent
* `GridRouter.dominance_better`: what a better node leads to
-/

set_option linter.unusedSectionVars false

namespace ZapTrace.GridRouter

open BestFirst

variable {κ : Type} [CommRing κ] [LinearOrder κ]

/-! ## Costs -/

/-- The cost of a step: a change of the layer, or a planar step with its length. -/
def stepCost (router : GridRouter κ) (p q : GridPos) : κ :=
  if p.layer = q.layer then router.moveCost (q.x - p.x, q.y - p.y) else router.via_cost

/-- The direction of the last step of a path that is given from its end. -/
def lastDirection : List GridPos → ℤ × ℤ
  | q :: p :: _ => (q.x - p.x, q.y - p.y)
  | _ => (0, 0)

/-- The penalty of a planar step in another direction than the step before. -/
def turnCost (router : GridRouter κ) (previous : ℤ × ℤ) (p q : GridPos) : κ :=
  if p.layer = q.layer ∧ (q.x - p.x, q.y - p.y) ≠ previous then router.turn_penalty else 0

/-- The cost of a path that is given from its end. -/
def trailCost (router : GridRouter κ) : List GridPos → κ
  | q :: p :: rest =>
    trailCost router (p :: rest) + router.stepCost p q + router.turnCost (lastDirection (p :: rest)) p q
  | _ => 0

def pathCost (router : GridRouter κ) (path : List GridPos) : κ := router.trailCost path.reverse

/-- The costs are exact and not negative. -/
structure Exact (router : GridRouter κ) : Prop where
  sqrt2_nonneg : 0 ≤ router.sqrt2
  sqrt2_sq : router.sqrt2 * router.sqrt2 = 2
  via_nonneg : 0 ≤ router.via_cost
  turn_nonneg : 0 ≤ router.turn_penalty

/-! ## Distances -/

section Distances

variable [IsStrictOrderedRing κ] {router : GridRouter κ}

theorem Exact.one_le_sqrt2 (h : router.Exact) : 1 ≤ router.sqrt2 := by
  nlinarith [h.sqrt2_nonneg, h.sqrt2_sq]

theorem Exact.sqrt2_le_two (h : router.Exact) : router.sqrt2 ≤ 2 := by
  nlinarith [h.sqrt2_nonneg, h.sqrt2_sq]

/-- The octile distance on one layer. -/
def planar (s : κ) (dx dy : ℤ) : κ := ((max dx dy : ℤ) : κ) + (s - 1) * ((min dx dy : ℤ) : κ)

theorem octile_eq (s : κ) (a b : GridPos) (via_cost : κ) :
    octile s a b via_cost = planar s |a.x - b.x| |a.y - b.y| + ((|a.layer - b.layer| : ℤ) : κ) * via_cost := rfl

theorem planar_comm (s : κ) (dx dy : ℤ) : planar s dx dy = planar s dy dx := by
  rw [planar, planar, max_comm, min_comm]

theorem planar_mono {s : κ} (hs : 1 ≤ s) {dx dx' dy dy' : ℤ} (hx : dx ≤ dx') (hy : dy ≤ dy') :
    planar s dx dy ≤ planar s dx' dy' := by
  have hmax : ((max dx dy : ℤ) : κ) ≤ ((max dx' dy' : ℤ) : κ) := Int.cast_le.mpr (max_le_max hx hy)
  have hmin : ((min dx dy : ℤ) : κ) ≤ ((min dx' dy' : ℤ) : κ) := Int.cast_le.mpr (min_le_min hx hy)
  exact add_le_add hmax (mul_le_mul_of_nonneg_left hmin (sub_nonneg.mpr hs))

theorem planar_succ_succ (s : κ) (dx dy : ℤ) : planar s (dx + 1) (dy + 1) = planar s dx dy + s := by
  rw [planar, planar, max_add_add_right, min_add_add_right]
  push_cast
  ring

theorem planar_succ_le {s : κ} (hs : s ≤ 2) (dx dy : ℤ) : planar s (dx + 1) dy ≤ planar s dx dy + 1 := by
  unfold planar
  by_cases h : dx + 1 ≤ dy
  · rw [max_eq_right h, min_eq_left h, max_eq_right (by omega : dx ≤ dy), min_eq_left (by omega : dx ≤ dy)]
    push_cast
    linarith
  · have h' : dy ≤ dx := by omega
    rw [max_eq_left (by omega : dy ≤ dx + 1), min_eq_right (by omega : dy ≤ dx + 1), max_eq_left h', min_eq_right h']
    push_cast
    linarith

theorem abs_sub_le_succ {a b d : ℤ} (hd : |d| ≤ 1) : |a - b| ≤ |a + d - b| + 1 := by
  have htriangle := abs_sub_abs_le_abs_sub (a - b) (a + d - b)
  have hdiff : a - b - (a + d - b) = -d := by ring
  rw [hdiff, abs_neg] at htriangle
  omega

theorem abs_le_one_of_mem_directions8 {d : ℤ × ℤ} (hd : d ∈ directions8) :
    |d.1| ≤ 1 ∧ |d.2| ≤ 1 ∧ (d.1 ≠ 0 ∨ d.2 ≠ 0) := by
  revert d
  decide

/-- **The octile distance is consistent** with planar steps. -/
theorem octile_le_move (h : router.Exact) {d : ℤ × ℤ} (hd : d ∈ directions8) (p goal : GridPos) :
    octile router.sqrt2 p goal router.via_cost ≤
      router.moveCost d + octile router.sqrt2 (p.move d) goal router.via_cost := by
  obtain ⟨hx, hy, _⟩ := abs_le_one_of_mem_directions8 hd
  have hone := h.one_le_sqrt2
  have hdx : |p.x - goal.x| ≤ |p.x + d.1 - goal.x| + 1 := abs_sub_le_succ hx
  have hdy : |p.y - goal.y| ≤ |p.y + d.2 - goal.y| + 1 := abs_sub_le_succ hy
  suffices hplanar : planar router.sqrt2 |p.x - goal.x| |p.y - goal.y| ≤
      planar router.sqrt2 |p.x + d.1 - goal.x| |p.y + d.2 - goal.y| + router.moveCost d by
    rw [octile_eq, octile_eq]
    show _ ≤ router.moveCost d + (planar router.sqrt2 |p.x + d.1 - goal.x| |p.y + d.2 - goal.y| +
      ((|p.layer - goal.layer| : ℤ) : κ) * router.via_cost)
    linarith
  unfold moveCost
  split
  · calc planar router.sqrt2 |p.x - goal.x| |p.y - goal.y| ≤
          planar router.sqrt2 (|p.x + d.1 - goal.x| + 1) (|p.y + d.2 - goal.y| + 1) := planar_mono hone hdx hdy
      _ = _ := planar_succ_succ _ _ _
  next hstraight =>
    -- one of the coordinates stays
    by_cases hd1 : d.1 = 0
    · rw [hd1, add_zero]
      calc planar router.sqrt2 |p.x - goal.x| |p.y - goal.y| ≤
            planar router.sqrt2 |p.x - goal.x| (|p.y + d.2 - goal.y| + 1) := planar_mono hone le_rfl hdy
        _ ≤ _ := by
            rw [planar_comm, planar_comm router.sqrt2 |p.x - goal.x|]
            exact planar_succ_le h.sqrt2_le_two _ _
    · have hd2 : d.2 = 0 := by
        by_contra hd2
        exact hstraight ⟨hd1, hd2⟩
      rw [hd2, add_zero]
      calc planar router.sqrt2 |p.x - goal.x| |p.y - goal.y| ≤
            planar router.sqrt2 (|p.x + d.1 - goal.x| + 1) |p.y - goal.y| := planar_mono hone hdx le_rfl
        _ ≤ _ := planar_succ_le h.sqrt2_le_two _ _

theorem octile_le_via (h : router.Exact) {layer_delta : ℤ} (hdelta : layer_delta ∈ [-1, 1]) (p goal : GridPos) :
    octile router.sqrt2 p goal router.via_cost ≤
      router.via_cost + octile router.sqrt2 ⟨p.x, p.y, p.layer + layer_delta⟩ goal router.via_cost := by
  have habs : |layer_delta| ≤ 1 := by
    revert layer_delta
    decide
  have hlayer : |p.layer - goal.layer| ≤ |p.layer + layer_delta - goal.layer| + 1 := abs_sub_le_succ habs
  have hcast : ((|p.layer - goal.layer| : ℤ) : κ) ≤ ((|p.layer + layer_delta - goal.layer| : ℤ) : κ) + 1 := by
    have hle : ((|p.layer - goal.layer| : ℤ) : κ) ≤ ((|p.layer + layer_delta - goal.layer| + 1 : ℤ) : κ) :=
      Int.cast_le.mpr hlayer
    push_cast at hle ⊢
    exact hle
  have hmul := mul_le_mul_of_nonneg_right hcast h.via_nonneg
  rw [octile_eq, octile_eq]
  show _ ≤ router.via_cost + (planar router.sqrt2 |p.x - goal.x| |p.y - goal.y| +
    ((|p.layer + layer_delta - goal.layer| : ℤ) : κ) * router.via_cost)
  linarith

theorem octile_self (s : κ) (p : GridPos) (via_cost : κ) : octile s p p via_cost = 0 := by
  simp [octile]

end Distances

/-! ## Estimates -/

section Estimates

variable {router : GridRouter κ} {obs : ObstacleMap} {net_id : Option String} {clear_cells : ℤ} {goal : GridPos}

def estimate (router : GridRouter κ) (goal : GridPos) (n : Node κ) : κ :=
  n.g + octile router.sqrt2 n.pos goal router.via_cost

/-- A node that leads everywhere with no more cost: it is at the same place and costs at least a turn less, or no more
and has come in the same direction. -/
def Better (router : GridRouter κ) (m n : Node κ) : Prop :=
  m.pos = n.pos ∧
    (m.g + router.turn_penalty ≤ n.g ∨ (m.g ≤ n.g ∧ m.previousDirection = n.previousDirection))

variable [IsStrictOrderedRing κ]

theorem IsChild.g_eq {n n' : Node κ} (h : IsChild router obs net_id clear_cells goal n n') :
    n'.g = n.g + router.stepCost n.pos n'.pos + router.turnCost n.previousDirection n.pos n'.pos ∧
      n'.parents = n.pos :: n.parents := by
  cases h with
  | @planar d mem free =>
    refine ⟨?_, rfl⟩
    have hdiff : ((n.pos.move d).x - n.pos.x, (n.pos.move d).y - n.pos.y) = d := by
      simp [GridPos.move]
    show n.g + router.moveCost d + (if d ≠ n.previousDirection then router.turn_penalty else 0) = _
    have hlayer : n.pos.layer = (n.pos.move d).layer := rfl
    simp only [stepCost, turnCost, planarChild, child, hdiff, ← hlayer, if_true, true_and]
  | @via layer_delta mem pad free =>
    refine ⟨?_, rfl⟩
    have hne : n.pos.layer ≠ n.pos.layer + layer_delta := by
      rcases List.mem_cons.mp mem with rfl | mem
      · omega
      · rw [List.mem_singleton.mp mem]
        omega
    show n.g + router.via_cost = _
    simp only [stepCost, turnCost, viaChild, child, hne, false_and, if_false, add_zero]

theorem turnCost_nonneg (h : router.Exact) (previous : ℤ × ℤ) (p q : GridPos) :
    0 ≤ router.turnCost previous p q := by
  unfold turnCost
  split
  · exact h.turn_nonneg
  · exact le_rfl

theorem turnCost_le (h : router.Exact) (previous : ℤ × ℤ) (p q : GridPos) :
    router.turnCost previous p q ≤ router.turn_penalty := by
  unfold turnCost
  split
  · exact le_rfl
  · exact h.turn_nonneg

/-- **Estimates do not fall** towards children. -/
theorem estimate_le_of_isChild (h : router.Exact) {n n' : Node κ}
    (hchild : IsChild router obs net_id clear_cells goal n n') :
    router.estimate goal n ≤ router.estimate goal n' := by
  cases hchild with
  | @planar d mem free =>
    have hmove := octile_le_move h mem n.pos goal
    have hturn : (0 : κ) ≤ if d ≠ n.previousDirection then router.turn_penalty else 0 := by
      split
      · exact h.turn_nonneg
      · exact le_rfl
    show n.g + _ ≤ n.g + router.moveCost d + (if d ≠ n.previousDirection then router.turn_penalty else 0) +
      octile router.sqrt2 (n.pos.move d) goal router.via_cost
    linarith
  | @via layer_delta mem pad free =>
    have hvia := octile_le_via h mem n.pos goal
    show n.g + _ ≤ n.g + router.via_cost +
      octile router.sqrt2 ⟨n.pos.x, n.pos.y, n.pos.layer + layer_delta⟩ goal router.via_cost
    linarith

theorem Better.g_le (h : router.Exact) {m n : Node κ} (hbetter : router.Better m n) : m.g ≤ n.g := by
  rcases hbetter.2 with hless | ⟨hle, _⟩
  · linarith [h.turn_nonneg]
  · exact hle

theorem Better.estimate_le (h : router.Exact) {m n : Node κ} (hbetter : router.Better m n) :
    router.estimate goal m ≤ router.estimate goal n := by
  unfold estimate
  rw [hbetter.1]
  linarith [hbetter.g_le h]

/-- **A better node leads to better nodes**: it makes the same move, and what the turn may cost it more it has saved
before. -/
theorem dominance_better (h : router.Exact) :
    Dominance (IsChild router obs net_id clear_cells goal) router.Better where
  refl := fun n => ⟨rfl, .inr ⟨le_rfl, rfl⟩⟩
  trans := by
    rintro l m n ⟨hpos, hlm⟩ ⟨hpos', hmn⟩
    refine ⟨hpos.trans hpos', ?_⟩
    have hturn := h.turn_nonneg
    rcases hlm with hlm | ⟨hlm, hdir⟩ <;> rcases hmn with hmn | ⟨hmn, hdir'⟩
    · exact .inl (by linarith)
    · exact .inl (by linarith)
    · exact .inl (by linarith)
    · exact .inr ⟨hlm.trans hmn, hdir.trans hdir'⟩
  child := by
    rintro m n n' hbetter hchild
    obtain ⟨m', hm', hpos⟩ := exists_isChild goal (hbetter.1 ▸ hchild.isMove : IsMove _ _ _ _ m.pos n'.pos)
    obtain ⟨hg, hparents⟩ := hchild.g_eq
    obtain ⟨hg', hparents'⟩ := hm'.g_eq
    refine ⟨m', hm', hpos, .inr ⟨?_, ?_⟩⟩
    · rw [hg, hg', hpos, hbetter.1]
      rcases hbetter.2 with hless | ⟨hle, hdir⟩
      · have hcost := turnCost_le h m.previousDirection n.pos n'.pos
        have hcost' := turnCost_nonneg h n.previousDirection n.pos n'.pos
        linarith
      · rw [hdir]
        linarith
    · unfold Node.previousDirection
      rw [hparents, hparents', hpos, hbetter.1]

end Estimates

end ZapTrace.GridRouter
