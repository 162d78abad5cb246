import ZapTrace.Algo.PathLines
import ZapTrace.Library.Raising

/-!
# What a simplified path covers

A path without repeated cells never turns back, so between two kept cells of one layer it makes the same step over and
over, and the cells that simplification leaves out are those between the two. Bresenham's loop visits just these: the
segments of the simplified path, put together, are the path again.

## Main results

* `loopCells_moves`: the loop along one of the eight directions
* `keptCells_simplifyPath`: what simplification keeps
* `covers_simplifyPath`: what the segments of the simplified path reserve
-/

namespace ZapTrace

open ObstacleMap GridRouter Bresenham List

/-! ## Lines in the eight directions -/

/-- The cells that `block_line` has visited after so many rounds of its loop. -/
def loopCells (fuel : ℕ) (p0 p1 : GridPos) : List GridPos :=
  (walk |p1.x - p0.x| (if p0.x < p1.x then 1 else -1) (-|p1.y - p0.y|) (if p0.y < p1.y then 1 else -1)
    p1.x p1.y fuel p0.x p0.y (|p1.x - p0.x| + -|p1.y - p0.y|)).map fun c => ⟨c.1, c.2, p0.layer⟩

/-- The cells from a position to the one `m` steps away. -/
def runCells (p : GridPos) (d : ℤ × ℤ) (m : ℕ) : List GridPos := (range (m + 1)).map fun k : ℕ => p.moves k d

theorem runCells_succ (p : GridPos) (d : ℤ × ℤ) (m : ℕ) :
    runCells p d (m + 1) = runCells p d m ++ [p.moves (m + 1 : ℕ) d] := by
  simp only [runCells, range_succ, map_append, map_cons, map_nil]

theorem sign_mul_step {x x' e : ℤ} {m : ℕ} (hx' : x' = x + m * e) (he : e = 0 ∨ e = 1 ∨ e = -1) (hm : 0 < m) (t : ℤ) :
    x + (if x < x' then 1 else -1) * (t * |e|) = x + t * e := by
  rcases he with rfl | rfl | rfl
  · simp
  · rw [if_pos (by omega), abs_one, one_mul]
  · rw [if_neg (by omega), abs_neg, abs_one]
    ring

/-- **The loop** along one of the eight directions ends, and visits each cell on the way. -/
theorem loopCells_moves (p : GridPos) {d : ℤ × ℤ} (hd : d ∈ directions8) {m fuel : ℕ} (hfuel : m < fuel) :
    loopCells fuel p (p.moves m d) = runCells p d m := by
  rcases Nat.eq_zero_or_pos m with rfl | hm
  · obtain ⟨fuel, rfl⟩ := Nat.exists_eq_succ_of_ne_zero hfuel.ne'
    simp [loopCells, runCells, walk, GridPos.moves]
  · obtain ⟨hx, hy, hab⟩ : (d.1 = 0 ∨ d.1 = 1 ∨ d.1 = -1) ∧ (d.2 = 0 ∨ d.2 = 1 ∨ d.2 = -1) ∧
        (|d.1| = 1 ∧ |d.2| = 0 ∨ |d.1| = 0 ∧ |d.2| = 1 ∨ |d.1| = 1 ∧ |d.2| = 1) := by
      revert d
      decide
    have habs : ∀ z e : ℤ, |z + m * e - z| = m * |e| := by
      intro z e
      rw [add_sub_cancel_left, abs_mul, Nat.abs_cast]
    have hwalk := walk_straight (sign_cases p.x (p.moves m d).x)
      (sign_cases p.y (p.moves m d).y) p.x p.y hab le_rfl (zero_add (m : ℤ)) hfuel
    rw [← habs p.x d.1, ← habs p.y d.2] at hwalk
    have hpx : (p.moves m d).x = p.x + m * d.1 := rfl
    have hpy : (p.moves m d).y = p.y + m * d.2 := rfl
    simp only [zero_mul, mul_zero, add_zero, zero_add, mul_one, sign_mul_step hpx hx hm, sign_mul_step hpy hy hm]
      at hwalk
    have hends := And.intro (sign_mul_abs p.x (p.moves m d).x) (sign_mul_abs p.y (p.moves m d).y)
    simp only [GridPos.moves] at hends hwalk
    rw [hends.1, hends.2] at hwalk
    rw [loopCells, ← sub_eq_add_neg]
    exact (congrArg (map fun c : ℤ × ℤ => (⟨c.1, c.2, p.layer⟩ : GridPos)) hwalk).trans map_map

theorem lineCells_moves (p : GridPos) {d : ℤ × ℤ} (hd : d ∈ directions8) (m : ℕ) :
    lineCells p (p.moves m d) = runCells p d m := by
  have hmax : (max |(p.moves m d).x - p.x| (- -|(p.moves m d).y - p.y|)).toNat = m := by
    have hab : |d.1| = 1 ∧ |d.2| = 0 ∨ |d.1| = 0 ∧ |d.2| = 1 ∨ |d.1| = 1 ∧ |d.2| = 1 := by revert d; decide
    simp only [GridPos.moves, add_sub_cancel_left, abs_mul, Nat.abs_cast, neg_neg]
    rcases hab with ⟨h, h'⟩ | ⟨h, h'⟩ | ⟨h, h'⟩ <;> simp [h, h']
  have hloop : lineCells p (p.moves m d) =
      loopCells ((max |(p.moves m d).x - p.x| (- -|(p.moves m d).y - p.y|)).toNat + 1) p (p.moves m d) := rfl
  rw [hloop, hmax]
  exact loopCells_moves p hd (Nat.lt_succ_self m)

/-! ## The way along the kept cells -/

/-- The path along cells: the lines on one layer, and the changes of the layer. -/
def rejoin : List GridPos → List GridPos
  | p :: q :: rest => (if p.layer = q.layer then (lineCells p q).dropLast else [p]) ++ rejoin (q :: rest)
  | path => path

/-- What the path has passed since the cell that was kept: the same step over and over, or one change of the layer. -/
def Passed (kept prev cur : GridPos) (passed : List GridPos) : Prop :=
  (∃ d ∈ directions8, ∃ m : ℕ, prev = kept.moves m d ∧ cur = kept.moves (m + 1 : ℕ) d ∧ passed = runCells kept d m) ∨
    kept = prev ∧ prev.layer ≠ cur.layer ∧ passed = [kept]

theorem passed_of_adjacent {prev cur : GridPos} (h : Adjacent prev cur) : Passed prev prev cur [prev] := by
  rcases h with ⟨d, hd, rfl⟩ | ⟨hlayer, -⟩
  · refine .inl ⟨d, hd, 0, by simp, ?_, by simp [runCells]⟩
    simpa using prev.move_moves 0 d
  · exact .inr ⟨rfl, hlayer, rfl⟩

variable {kept prev cur nxt : GridPos} {passed rest : List GridPos}

theorem Passed.segment (h : Passed kept prev cur passed) :
    (if kept.layer = cur.layer then (lineCells kept cur).dropLast else [kept]) = passed := by
  rcases h with ⟨d, hd, m, -, rfl, rfl⟩ | ⟨rfl, hlayer, rfl⟩
  · have hlayer : kept.layer = (kept.moves (m + 1 : ℕ) d).layer := rfl
    rw [if_pos hlayer, lineCells_moves kept hd, runCells_succ, dropLast_concat]
  · rw [if_neg hlayer]

/-- A cell that is left out is on the line: a step back would repeat the cell before. -/
theorem Passed.step (h : Passed kept prev cur passed) (hnodup : (passed ++ cur :: nxt :: rest).Nodup)
    (hadjacent : Adjacent cur nxt) (hcollinear : isCollinear prev cur nxt = true) :
    Passed kept cur nxt (passed ++ [cur]) := by
  simp only [isCollinear, decide_eq_true_eq] at hcollinear
  obtain ⟨hlayer, hlayer', hcross⟩ := hcollinear
  rcases h with ⟨d, hd, m, hprev, hcur, rfl⟩ | ⟨-, hne, -⟩
  · rcases hadjacent with ⟨d', hd', hmove⟩ | ⟨hne, -⟩
    · have hlast : cur = prev.move d := by rw [hprev, hcur, GridPos.move_moves, Nat.cast_succ]
      have hparallel : d.1 * d'.2 = d'.1 * d.2 := by simpa [hlast, hmove, GridPos.move] using hcross
      rcases eq_or_opposite_of_parallel hd hd' hparallel with rfl | rfl
      · refine .inl ⟨d', hd, m + 1, hcur, ?_, by rw [hcur, runCells_succ]⟩
        rw [hmove, hcur, GridPos.move_moves, Nat.cast_succ (m + 1)]
      · rw [hcur, GridPos.move_opposite_moves, Nat.cast_succ, add_sub_cancel_right, ← hprev] at hmove
        have hmem : prev ∈ runCells kept d m :=
          mem_map.mpr ⟨m, mem_range.mpr (Nat.lt_succ_self m), hprev.symm⟩
        exact absurd (hmove ▸ mem_cons_of_mem cur mem_cons_self)
          (disjoint_of_nodup_append hnodup hmem)
    · exact absurd (hlayer.trans hlayer') hne
  · exact absurd hlayer.symm hne

def coveredCells (path : List GridPos) : List GridPos := (segments path).flatMap fun seg => lineCells seg.1 seg.2

/-- Two cells of one layer lie in one of the eight directions. -/
def Straight (p q : GridPos) : Prop := p.layer = q.layer → ∃ d ∈ directions8, ∃ m : ℕ, q = p.moves m d

structure KeptCells (kept path : List GridPos) : Prop where
  rejoined : rejoin kept = path
  straight : kept.IsChain Straight
  covered : ∀ seg ∈ segments path, seg.1.layer = seg.2.layer → seg.1 ∈ coveredCells kept ∧ seg.2 ∈ coveredCells kept

theorem segments_append (xs : List GridPos) (y : GridPos) (ys : List GridPos) :
    segments (xs ++ y :: ys) = segments (xs ++ [y]) ++ segments (y :: ys) := by
  induction xs with
  | nil => rfl
  | cons x xs ih =>
    cases xs with
    | nil => rfl
    | cons x' xs => exact congrArg (cons (x, x')) ih

theorem Passed.straight (h : Passed kept prev cur passed) : Straight kept cur := by
  rcases h with ⟨d, hd, m, -, hcur, -⟩ | ⟨rfl, hne, -⟩
  · exact fun _ => ⟨d, hd, m + 1, hcur⟩
  · exact fun hlayer => absurd hlayer hne

theorem Passed.covered (h : Passed kept prev cur passed) : ∀ seg ∈ segments (passed ++ [cur]),
    seg.1.layer = seg.2.layer → seg.1 ∈ lineCells kept cur ∧ seg.2 ∈ lineCells kept cur := by
  intro seg hseg hlayer
  rcases h with ⟨d, hd, m, -, rfl, rfl⟩ | ⟨rfl, hne, rfl⟩
  · rw [← runCells_succ, ← lineCells_moves kept hd] at hseg
    exact mem_of_mem_segments hseg
  · obtain rfl := mem_singleton.mp hseg
    exact absurd hlayer hne

theorem keptCells_innerCorners (h : Passed kept prev cur passed) (hnodup : (passed ++ cur :: rest).Nodup)
    (hchain : (prev :: cur :: rest).IsChain Adjacent) :
    KeptCells (kept :: innerCorners (prev :: cur :: rest) ++ [(cur :: rest).getLast (cons_ne_nil _ _)])
      (passed ++ cur :: rest) := by
  induction rest generalizing kept prev cur passed with
  | nil =>
    show KeptCells [kept, cur] _
    refine ⟨?_, isChain_pair.mpr h.straight, ?_⟩
    · rw [rejoin, h.segment]
      rfl
    · simpa [coveredCells, segments] using h.covered
  | cons nxt rest ih =>
    have htail : (cur :: nxt :: rest).IsChain Adjacent := hchain.tail
    have hstep : Adjacent cur nxt := (isChain_cons_cons.mp htail).1
    rw [getLast_cons (cons_ne_nil _ _)]
    unfold innerCorners
    split
    · rename_i hcollinear
      have hsame := ih (h.step hnodup hstep hcollinear) (by simpa using hnodup) htail
      rwa [append_assoc] at hsame
    · -- a new run begins at the cell that is kept
      have hrest := ih (passed_of_adjacent hstep) (List.Nodup.of_append_right hnodup) htail
      refine ⟨?_, isChain_cons_cons.mpr ⟨h.straight, hrest.straight⟩, ?_⟩
      · show (if kept.layer = cur.layer then _ else _) ++ rejoin (cur :: innerCorners _ ++ _) = _
        rw [h.segment, hrest.rejoined]
        rfl
      · intro seg hseg hlayer
        rw [segments_append] at hseg
        rcases mem_append.mp hseg with hseg | hseg
        · obtain ⟨hstart, hend⟩ := h.covered seg hseg hlayer
          exact ⟨mem_append_left _ hstart, mem_append_left _ hend⟩
        · obtain ⟨hstart, hend⟩ := hrest.covered seg hseg hlayer
          exact ⟨mem_append_right _ hstart, mem_append_right _ hend⟩

theorem keptCells_simplifyPath {path : List GridPos} (hnodup : path.Nodup) (hchain : path.IsChain Adjacent) :
    KeptCells (simplifyPath path) path := by
  match path, hnodup, hchain with
  | [], _, _ => exact ⟨rfl, .nil, nofun⟩
  | [_], _, _ => exact ⟨rfl, .singleton _, nofun⟩
  | first :: second :: rest, hnodup, hchain =>
    rw [simplifyPath_cons_cons]
    exact keptCells_innerCorners (passed_of_adjacent (isChain_cons_cons.mp hchain).1) hnodup hchain

/-! ## What is kept -/

theorem innerCorners_sublist (path : List GridPos) : (innerCorners path).Sublist path.tail.dropLast := by
  fun_induction innerCorners path with
  | case1 prev cur nxt rest h ih => exact ih.trans (sublist_cons_self cur _)
  | case2 prev cur nxt rest h ih => exact ih.cons_cons cur
  | case3 => exact nil_sublist _

theorem simplifyPath_sublist (path : List GridPos) : (simplifyPath path).Sublist path := by
  match path with
  | [] => exact List.Sublist.refl _
  | [_] => exact List.Sublist.refl _
  | first :: second :: rest =>
    rw [simplifyPath_cons_cons, cons_append]
    refine List.Sublist.cons_cons first ?_
    conv_rhs => rw [← dropLast_append_getLast (cons_ne_nil second rest)]
    exact (innerCorners_sublist (first :: second :: rest)).append (List.Sublist.refl _)

/-! ## What is reserved -/

/-- The segments are reserved one after the other, without a clearance. -/
def coverSegments (net_id : Option String) (segs : List (GridPos × GridPos)) (obs : ObstacleMap) :
    Except String ObstacleMap :=
  segs.foldlM (fun obs seg => obs.blockLine seg.1 seg.2 0 net_id) obs

/-- A cell is blocked, or the net has it. -/
def Taken (obs : ObstacleMap) (c : GridPos) : Option String → Prop
  | none => obs.cells c = true
  | some net_id => obs.copper c = some net_id

variable {net_id : Option String} {obs obs' : ObstacleMap}

theorem taken_blockLine {p q : GridPos} (h : obs.blockLine p q 0 net_id = .ok obs') :
    (∀ c, obs'.inBounds c = obs.inBounds c) ∧
      ∀ c, Taken obs' c net_id ↔ Taken obs c net_id ∨ (obs.inBounds c = true ∧ c ∈ lineCells p q) := by
  cases net_id with
  | none =>
    obtain rfl := Except.ok.inj h
    simp only [lt_irrefl, if_false]
    induction lineCells p q generalizing obs with
    | nil => simp [Taken]
    | cons head tail ih =>
      have hbounds : ∀ c, (obs.block head).inBounds c = obs.inBounds c := by
        intro c
        unfold block
        split <;> rfl
      obtain ⟨hin, htaken⟩ := @ih (obs.block head) rfl
      refine ⟨fun c => (hin c).trans (hbounds c), fun c => ?_⟩
      rw [foldl_cons, htaken c, hbounds, mem_cons]
      simp only [Taken, block]
      by_cases hhead : obs.inBounds head = true
      · by_cases hc : c = head
        · subst hc
          simp [hhead]
        · simp [hhead, hc]
      · rw [if_neg hhead]
        by_cases hc : c = head
        · subst hc
          simp [hhead]
        · simp [hc]
  | some net_id =>
    obtain ⟨-, rfl⟩ := blockLine_ok_iff.mp h
    refine ⟨fun c => rfl, fun c => ?_⟩
    have hmem : c ∈ obs.reservations p q 0 ↔ obs.inBounds c = true ∧ c ∈ lineCells p q := by
      rw [mem_reservations]
      refine and_congr_right fun _ => ⟨?_, fun hc => ⟨c, hc, rfl, by simp [chebyshev]⟩⟩
      rintro ⟨c', hc', hlayer, hnear⟩
      obtain ⟨hx, hy⟩ := max_le_iff.mp hnear
      rw [abs_nonpos_iff, sub_eq_zero] at hx hy
      have hcell : c = c' := by
        rw [GridPos.mk.injEq]
        exact ⟨hx.symm, hy.symm, hlayer⟩
      exact hcell ▸ hc'
    simp only [Taken, ← hmem]
    by_cases hc : c ∈ obs.reservations p q 0 <;> simp [hc]

theorem taken_coverSegments {segs : List (GridPos × GridPos)} (h : coverSegments net_id segs obs = .ok obs')
    (c : GridPos) : Taken obs' c net_id ↔
      Taken obs c net_id ∨ (obs.inBounds c = true ∧ c ∈ segs.flatMap fun seg => lineCells seg.1 seg.2) := by
  induction segs generalizing obs with
  | nil =>
    obtain rfl := Except.ok.inj h
    simp
  | cons seg segs ih =>
    rw [coverSegments, foldlM_cons] at h
    obtain ⟨mid, hmid, hrest⟩ := Raising.bind_eq_ok_iff.mp h
    obtain ⟨hin, htaken⟩ := taken_blockLine hmid
    rw [ih hrest, htaken, hin, flatMap_cons, mem_append]
    tauto

theorem mem_of_mem_coveredCells {path : List GridPos} (hchain : path.IsChain Adjacent) {c : GridPos}
    (hc : c ∈ coveredCells (simplifyPath path)) : c ∈ path := by
  obtain ⟨⟨p, q⟩, hseg, hline⟩ := mem_flatMap.mp hc
  have haligned : path.IsChain Aligned := hchain.imp fun p q h => by
    rcases h with ⟨d, -, rfl⟩ | ⟨-, hxy⟩
    · exact .inl rfl
    · exact .inr hxy
  refine mem_of_mem_pathCells_simplifyPath hchain (mem_flatMap.mpr ⟨(p, q), hseg, ?_⟩)
  rw [segmentCells]
  split
  · exact hline
  · rename_i hlayer
    obtain ⟨hx, hy⟩ := (rel_of_mem_segments (simplifyPath_isChain haligned) hseg).resolve_left hlayer
    obtain ⟨hclayer, hcx, hcy⟩ := lineCells_between hline
    dsimp only at hclayer hcx hcy
    have hcell : c = p := by
      rw [GridPos.mk.injEq]
      exact ⟨by omega, by omega, hclayer⟩
    rw [hcell]
    exact mem_cons_self

/-- **Reserving a simplified path** segment by segment takes the cells of the path and no others, all cells of each run
on a layer among them: simplification keeps the ends, and leaves out only cells of the straight runs that the loop
visits. -/
theorem covers_simplifyPath {path : List GridPos} (hnodup : path.Nodup) (hchain : path.IsChain Adjacent) :
    ((simplifyPath path).head? = path.head? ∧ (simplifyPath path).getLast? = path.getLast? ∧
      (simplifyPath path).Sublist path ∧ rejoin (simplifyPath path) = path) ∧
    (∀ p q, (p, q) ∈ segments (simplifyPath path) → p.layer = q.layer → ∃ d ∈ directions8, ∃ m : ℕ, q = p.moves m d ∧
      lineCells p q = runCells p d m ∧ ∀ fuel, m < fuel → loopCells fuel p q = runCells p d m) ∧
    (∀ c ∈ coveredCells (simplifyPath path), c ∈ path) ∧
    (∀ a b, (a, b) ∈ segments path → a.layer = b.layer →
      a ∈ coveredCells (simplifyPath path) ∧ b ∈ coveredCells (simplifyPath path)) ∧
    ∀ net_id obs obs', coverSegments net_id (segments (simplifyPath path)) obs = .ok obs' → ∀ c,
      Taken obs' c net_id ↔
        Taken obs c net_id ∨ (obs.inBounds c = true ∧ c ∈ coveredCells (simplifyPath path)) := by
  obtain ⟨hrejoin, hstraight, hcovered⟩ := keptCells_simplifyPath hnodup hchain
  refine ⟨⟨head?_simplifyPath path, getLast?_simplifyPath path, simplifyPath_sublist path, hrejoin⟩, ?_,
    fun c => mem_of_mem_coveredCells hchain, fun a b => hcovered (a, b), fun _ _ _ => taken_coverSegments⟩
  intro p q hseg hlayer
  obtain ⟨d, hd, m, rfl⟩ := rel_of_mem_segments hstraight hseg hlayer
  exact ⟨d, hd, m, rfl, lineCells_moves p hd m, fun fuel hfuel => loopCells_moves p hd hfuel⟩

def cornerPath : List GridPos := [⟨0, 0, 0⟩, ⟨1, 0, 0⟩, ⟨2, 0, 0⟩, ⟨2, 1, 0⟩, ⟨2, 1, 1⟩]

theorem covers_cornerPath : rejoin (simplifyPath cornerPath) = cornerPath := by
  have hchain : cornerPath.IsChain Adjacent := by
    simp only [cornerPath, isChain_cons_cons, isChain_singleton, and_true]
    exact ⟨.inl ⟨(1, 0), by decide, rfl⟩, .inl ⟨(1, 0), by decide, rfl⟩, .inl ⟨(0, 1), by decide, rfl⟩,
      .inr ⟨by decide, rfl, rfl⟩⟩
  exact (covers_simplifyPath (by decide) hchain).1.2.2.2

end ZapTrace
