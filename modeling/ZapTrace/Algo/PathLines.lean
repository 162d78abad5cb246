import ZapTrace.Algo.GridClearance

/-!
# The lines of a simplified path

Between two corners on one layer a path makes steps along one line, in one of the eight directions or
back. So it passes every cell of the line between them: simplification leaves out only cells that the
segments of what it keeps go through, and the segments go through no other cells.

## Main results

* `lineCells_straight`: Bresenham's line in one of the eight directions
* `mem_of_mem_pathCells_simplifyPath`: the cells of the simplified path are cells of the path
-/

namespace ZapTrace

open GridPos List

/-- The position `k` steps away. -/
def GridPos.moves (pos : GridPos) (k : ℤ) (d : ℤ × ℤ) : GridPos :=
  ⟨pos.x + k * d.1, pos.y + k * d.2, pos.layer⟩

@[simp] theorem GridPos.moves_zero (pos : GridPos) (d : ℤ × ℤ) : pos.moves 0 d = pos := by
  simp [moves]

theorem GridPos.move_moves (pos : GridPos) (k : ℤ) (d : ℤ × ℤ) :
    (pos.moves k d).move d = pos.moves (k + 1) d := by
  simp only [moves, move, mk.injEq, and_true]
  exact ⟨by ring, by ring⟩

def opposite (d : ℤ × ℤ) : ℤ × ℤ := (-d.1, -d.2)

theorem GridPos.move_opposite_moves (pos : GridPos) (k : ℤ) (d : ℤ × ℤ) :
    (pos.moves k d).move (opposite d) = pos.moves (k - 1) d := by
  simp only [moves, move, opposite, mk.injEq, and_true]
  exact ⟨by ring, by ring⟩

theorem eq_or_opposite_of_parallel {d : ℤ × ℤ} (hd : d ∈ directions8) {d' : ℤ × ℤ}
    (hd' : d' ∈ directions8) (h : d.1 * d'.2 = d'.1 * d.2) : d' = d ∨ d' = opposite d := by
  have hall : ∀ d ∈ directions8, ∀ d' ∈ directions8, d.1 * d'.2 = d'.1 * d.2 →
      d' = d ∨ d' = opposite d := by decide
  exact hall d hd d' hd' h

/-! ## Lines in the eight directions -/

theorem eq_of_near_diagonal {D i j : ℤ} (h : Bresenham.Near D D i j) : i = j := by
  obtain ⟨hi₀, hi, hj₀, hj, hlow, hup⟩ := h
  rw [max_self] at hlow hup
  by_contra hne
  rcases lt_or_gt_of_ne hne with hlt | hlt
  · have hmul : D * (i + 1) ≤ D * j := mul_le_mul_of_nonneg_left (by omega) (by omega)
    nlinarith
  · have hmul : D * (j + 1) ≤ D * i := mul_le_mul_of_nonneg_left (by omega) (by omega)
    nlinarith

/-- **The line** to a position in one of the eight directions goes in this direction. -/
theorem lineCells_straight {p c : GridPos} {d : ℤ × ℤ} (hd : d ∈ directions8) {m : ℤ}
    (hc : c ∈ lineCells p (p.moves m d)) : ∃ k, min 0 m ≤ k ∧ k ≤ max 0 m ∧ c = p.moves k d := by
  obtain ⟨xy, hxy, rfl⟩ := mem_map.mp hc
  obtain ⟨i, j, hnear, rfl⟩ := Bresenham.near_of_mem_line _ _ _ _ hxy
  simp only [moves, add_sub_cancel_left] at hnear ⊢
  have hdiagonal : |m * d.1| = |m * d.2| → i = j := by
    intro heq
    rw [← heq] at hnear
    exact eq_of_near_diagonal hnear
  obtain ⟨hi₀, hi, hj₀, hj, -, -⟩ := hnear
  refine ⟨if 0 ≤ m then max i j else -max i j, ?_⟩
  simp only [directions8, mem_cons, not_mem_nil, or_false] at hd
  rcases le_or_gt 0 m with hm | hm
  · rcases hd with rfl | rfl | rfl | rfl | rfl | rfl | rfl | rfl <;>
      simp only [mul_one, mul_zero, mul_neg, abs_neg, abs_zero, abs_of_nonneg hm, mk.injEq,
        and_true, if_pos hm, forall_const] at hdiagonal hi hj ⊢ <;>
      refine ⟨by omega, by omega, ?_, ?_⟩ <;> split_ifs <;> omega
  · rcases hd with rfl | rfl | rfl | rfl | rfl | rfl | rfl | rfl <;>
      simp only [mul_one, mul_zero, mul_neg, abs_neg, abs_zero, abs_of_neg hm, mk.injEq,
        and_true, if_neg (not_le.mpr hm), forall_const] at hdiagonal hi hj ⊢ <;>
      refine ⟨by omega, by omega, ?_, ?_⟩ <;> split_ifs <;> omega

/-! ## What a path passes -/

/-- A step in one of the eight directions, or to another layer. -/
def Adjacent (p q : GridPos) : Prop :=
  (∃ d ∈ directions8, q = p.move d) ∨ (p.layer ≠ q.layer ∧ p.x = q.x ∧ p.y = q.y)

theorem IsMove.adjacent {obs : ObstacleMap} {net_id : Option String} {clear_cells : ℤ}
    {pad_aware : Bool} {p q : GridPos} (h : IsMove obs net_id clear_cells pad_aware p q) :
    Adjacent p q := by
  rcases h with ⟨d, hd, rfl, -⟩ | ⟨-, rfl | rfl, -⟩
  · exact .inl ⟨d, hd, rfl⟩
  · refine .inr ⟨?_, rfl, rfl⟩
    show p.layer ≠ p.layer - 1
    omega
  · refine .inr ⟨?_, rfl, rfl⟩
    show p.layer ≠ p.layer + 1
    omega

/-- All cells between two positions on a line are among the cells. -/
def StraightRun (cells : List GridPos) (kept cur : GridPos) (d : ℤ × ℤ) : Prop :=
  ∃ m, cur = kept.moves m d ∧ ∀ k, min 0 m ≤ k → k ≤ max 0 m → kept.moves k d ∈ cells
variable {cells : List GridPos}

theorem StraightRun.start {kept cur : GridPos} {d : ℤ × ℤ} (hkept : kept ∈ cells) (hcur : cur ∈ cells)
    (hmove : cur = kept.move d) : StraightRun cells kept cur d := by
  have hone : kept.move d = kept.moves 1 d := by simpa using kept.move_moves 0 d
  refine ⟨1, hmove.trans hone, fun k hlow hup => ?_⟩
  obtain rfl | rfl : k = 0 ∨ k = 1 := by omega
  · rw [moves_zero]
    exact hkept
  · rw [← hone, ← hmove]
    exact hcur

theorem StraightRun.step {kept cur nxt : GridPos} {d d' : ℤ × ℤ} (h : StraightRun cells kept cur d) (hnxt : nxt ∈ cells)
    (hd : d' = d ∨ d' = opposite d) (hmove : nxt = cur.move d') : StraightRun cells kept nxt d := by
  obtain ⟨m, rfl, hcells⟩ := h
  rcases hd with rfl | rfl
  · rw [move_moves] at hmove
    refine ⟨m + 1, hmove, fun k hlow hup => ?_⟩
    by_cases hk : k = m + 1
    · rw [hk, ← hmove]
      exact hnxt
    · exact hcells k (by omega) (by omega)
  · rw [move_opposite_moves] at hmove
    refine ⟨m - 1, hmove, fun k hlow hup => ?_⟩
    by_cases hk : k = m - 1
    · rw [hk, ← hmove]
      exact hnxt
    · exact hcells k (by omega) (by omega)

/-- What is known at a cell after the one that was kept: the path came here along a line, or by one
change of the layer. -/
def CameStraight (cells : List GridPos) (kept prev cur : GridPos) : Prop :=
  (∃ d ∈ directions8, StraightRun cells kept cur d ∧ (cur = prev.move d ∨ cur = prev.move (opposite d))) ∨
    kept = prev ∧ prev.layer ≠ cur.layer

theorem cameStraight_of_adjacent {prev cur : GridPos} (hprev : prev ∈ cells) (hcur : cur ∈ cells)
    (h : Adjacent prev cur) : CameStraight cells prev prev cur := by
  rcases h with ⟨d, hd, hmove⟩ | ⟨hlayer, -⟩
  · exact .inl ⟨d, hd, StraightRun.start hprev hcur hmove, .inl hmove⟩
  · exact .inr ⟨rfl, hlayer⟩

theorem CameStraight.step {kept prev cur nxt : GridPos} (h : CameStraight cells kept prev cur) (hnxt : nxt ∈ cells)
    (hadjacent : Adjacent cur nxt) (hcollinear : isCollinear prev cur nxt = true) :
    CameStraight cells kept cur nxt := by
  simp only [isCollinear, decide_eq_true_eq] at hcollinear
  obtain ⟨hlayer, hlayer', hcross⟩ := hcollinear
  rcases h with ⟨d, hd, hrun, hcame⟩ | ⟨-, hne⟩
  · rcases hadjacent with ⟨d', hd', hmove⟩ | ⟨hne, -⟩
    · have hparallel : d.1 * d'.2 = d'.1 * d.2 := by
        rcases hcame with hcame | hcame
        · simpa [hcame, hmove, move] using hcross
        · simpa [hcame, hmove, move, opposite] using hcross
      have hsame := eq_or_opposite_of_parallel hd hd' hparallel
      refine .inl ⟨d, hd, hrun.step hnxt hsame hmove, ?_⟩
      rcases hsame with rfl | rfl
      · exact .inl hmove
      · exact .inr hmove
    · exact absurd (hlayer.trans hlayer') hne
  · exact absurd hlayer.symm hne

theorem CameStraight.segmentCells_subset {kept prev cur : GridPos} (h : CameStraight cells kept prev cur)
    (hkept : kept ∈ cells) (hcur : cur ∈ cells) : ∀ c ∈ segmentCells kept cur, c ∈ cells := by
  intro c hc
  rcases h with ⟨d, hd, ⟨m, rfl, hcells⟩, -⟩ | ⟨rfl, hne⟩
  · have hlayer : kept.layer = (kept.moves m d).layer := rfl
    rw [segmentCells, if_pos hlayer] at hc
    obtain ⟨k, hlow, hup, rfl⟩ := lineCells_straight hd hc
    exact hcells k hlow hup
  · rw [segmentCells, if_neg hne, mem_cons, mem_singleton] at hc
    rcases hc with rfl | rfl
    · exact hkept
    · exact hcur

theorem isChain_innerCorners_passed {kept prev cur : GridPos} {rest : List GridPos}
    (hcells : ∀ c ∈ cur :: rest, c ∈ cells) (hkept : kept ∈ cells) (hcame : CameStraight cells kept prev cur)
    (hchain : (prev :: cur :: rest).IsChain Adjacent) :
    (kept :: innerCorners (prev :: cur :: rest) ++
      [(cur :: rest).getLast (cons_ne_nil _ _)]).IsChain
        fun p q => ∀ c ∈ segmentCells p q, c ∈ cells := by
  have hcur := hcells cur mem_cons_self
  induction rest generalizing kept prev cur with
  | nil => simpa [innerCorners] using hcame.segmentCells_subset hkept hcur
  | cons nxt rest ih =>
    have htail : (cur :: nxt :: rest).IsChain Adjacent := hchain.tail
    have hstep : Adjacent cur nxt := (isChain_cons_cons.mp htail).1
    have hrest : ∀ c ∈ nxt :: rest, c ∈ cells := fun c hc => hcells c (mem_cons_of_mem _ hc)
    have hnxt := hrest nxt mem_cons_self
    rw [getLast_cons (cons_ne_nil _ _)]
    unfold innerCorners
    split
    · rename_i hcollinear
      exact ih hrest hkept (hcame.step hnxt hstep hcollinear) htail hnxt
    · exact isChain_cons_cons.mpr ⟨hcame.segmentCells_subset hkept hcur,
        ih hrest hcur (cameStraight_of_adjacent hcur hnxt hstep) htail hnxt⟩

theorem mem_of_isChain_segments {cells path : List GridPos}
    (hchain : path.IsChain fun p q => ∀ c ∈ segmentCells p q, c ∈ cells) :
    ∀ c ∈ pathCells path, c ∈ cells := by
  unfold pathCells
  fun_induction segments path with
  | case1 p q rest ih =>
    intro c hc
    rw [flatMap_cons] at hc
    rcases mem_append.mp hc with hc | hc
    · exact (isChain_cons_cons.mp hchain).1 c hc
    · exact ih hchain.tail c hc
  | case2 => exact fun c hc => absurd hc not_mem_nil

/-- **The cells of the simplified path** are cells of the path. -/
theorem mem_of_mem_pathCells_simplifyPath {path : List GridPos} (hchain : path.IsChain Adjacent)
    {c : GridPos} (hc : c ∈ pathCells (simplifyPath path)) : c ∈ path := by
  match path, hchain, hc with
  | [], _, hc => cases hc
  | [_], _, hc => cases hc
  | first :: second :: rest, hchain, hc =>
    rw [simplifyPath_cons_cons] at hc
    refine mem_of_isChain_segments ?_ c hc
    have hfirst : first ∈ first :: second :: rest := mem_cons_self
    have hsecond : second ∈ first :: second :: rest := mem_cons_of_mem _ mem_cons_self
    exact isChain_innerCorners_passed (fun c hc => mem_cons_of_mem _ hc) hfirst
      (cameStraight_of_adjacent hfirst hsecond (isChain_cons_cons.mp hchain).1) hchain

end ZapTrace
