import ZapTrace.Algo.GridVias

/-!
# Clearance with pad copper

With pad copper the corridor of a cell is tested when the search steps to it, but the cell a path starts
with is only free itself. Reserving a segment leaves out the cells that are not on the grid. What makes
up for both is the wall: the cells on the edge of the grid are blocked, and a reservation is refused
when it meets a blocked cell. The cells around a line that goes near the edge include one on the edge,
so a segment that is reserved has only cells of the grid around it.

## Main results

* `walled_padOccupancy`: a map of pads and static blocks inside blocked edges is walled
* `clear_of_blockLine`: around a line that is reserved
* `paths_clear`: around the paths of the nets, in every run
-/

namespace ZapTrace

open ObstacleMap GridRouter List

/-! ## Walled maps -/

namespace ObstacleMap

/-- The cells on the edge of the grid are blocked, and blocked cells are not reserved. -/
structure Walled (obs : ObstacleMap) : Prop where
  static : obs.enforce_static_clearance = true
  border : ∀ p, obs.inBounds p → ¬ obs.Inner p → obs.cells p = true

/-- The net has the cell, and no block, no conflict of pads and no pad but its own is there. -/
structure Clear (obs : ObstacleMap) (net_id : String) (p : GridPos) : Prop where
  inBounds : obs.inBounds p
  cells : obs.cells p = false
  pad_conflicts : obs.pad_conflicts p = false
  pads : ∀ pad, obs.pads p = some pad → pad = some net_id
  copper : obs.copper p = some net_id

/-- What is drawn on the map before the nets are planned: the copper of a pad, or a static block. -/
inductive Mark
  | pad (point : GridPos) (net_id : Option String)
  | block (point : GridPos)

def mark (obs : ObstacleMap) : Mark → ObstacleMap
  | .pad point net_id => obs.markPad point net_id
  | .block point => obs.block point

/-- The occupancy with pad copper: the edges of the board, then pads, drill openings and the cells
outside the profile of the board. -/
def padOccupancy (grid_w grid_h num_layers : ℤ) (marks : List Mark) : ObstacleMap :=
  marks.foldl mark
    { blockBoardEdges (empty grid_w grid_h num_layers) grid_w grid_h num_layers with
      enforce_static_clearance := true }

theorem Walled.mark {obs : ObstacleMap} (h : obs.Walled) (m : Mark) : (obs.mark m).Walled := by
  cases m with
  | pad point net_id => exact ⟨h.static, h.border⟩
  | block point =>
    show (obs.block point).Walled
    unfold ObstacleMap.block
    split
    · refine ⟨h.static, fun p hin hinner => ?_⟩
      show (if p = point then true else obs.cells p) = true
      split
      · rfl
      · exact h.border p hin hinner
    · exact h

theorem walled_padOccupancy (grid_w grid_h num_layers : ℤ) (marks : List Mark) :
    (padOccupancy grid_w grid_h num_layers marks).Walled := by
  refine foldlRecOn (motive := Walled) marks _ ?_ fun obs h m _ => h.mark m
  exact ⟨rfl, (blockBoardEdges_empty grid_w grid_h num_layers).2.border⟩

end ObstacleMap

/-! ## What planning changes -/

/-- Planning a net with pad copper only makes cells that no net has its own. -/
structure Reserves (net_id : String) (obs obs' : ObstacleMap) : Prop extends Grows net_id obs obs' where
  cells : obs'.cells = obs.cells

section Reserves

variable {net_id : String} {obs obs' obs'' : ObstacleMap}

theorem Reserves.refl (net_id : String) (obs : ObstacleMap) : Reserves net_id obs obs :=
  ⟨Grows.refl net_id obs, rfl⟩

theorem Reserves.trans (h : Reserves net_id obs obs') (h' : Reserves net_id obs' obs'') :
    Reserves net_id obs obs'' :=
  ⟨h.toGrows.trans h'.toGrows, h'.cells.trans h.cells⟩

theorem Reserves.walled (h : Reserves net_id obs obs') (hwalled : obs.Walled) : obs'.Walled where
  static := h.static.trans hwalled.static
  border := fun p hin hinner => by
    rw [h.cells]
    exact hwalled.border p (h.inBounds_iff.mp hin) fun hp => hinner (h.inner_iff.mpr hp)

theorem Reserves.eq_withCopper (h : Reserves net_id obs obs') :
    obs' = { obs with copper := obs'.copper } := by
  obtain ⟨w, hgt, l, cells, copper, pads, conflicts, static⟩ := obs'
  simp only [ObstacleMap.mk.injEq, true_and]
  exact ⟨h.width, h.height, h.layers, h.cells, h.pads, h.pad_conflicts, h.static⟩

theorem Reserves.clear {other : String} (h : Reserves other obs obs') {p : GridPos}
    (hclear : obs.Clear net_id p) : obs'.Clear net_id p where
  inBounds := h.inBounds_iff.mpr hclear.inBounds
  cells := by rw [h.cells, hclear.cells]
  pad_conflicts := by rw [h.pad_conflicts, hclear.pad_conflicts]
  pads := fun pad hpad => hclear.pads pad (by rw [← h.pads, hpad])
  copper := h.kept p net_id hclear.copper

theorem reserves_blockLine {p0 p1 : GridPos} {radius : ℤ}
    (h : obs.blockLine p0 p1 radius (some net_id) = Except.ok obs') : Reserves net_id obs obs' := by
  refine ⟨grows_blockLine h, ?_⟩
  obtain ⟨-, rfl⟩ := blockLine_ok_iff.mp h
  rfl

theorem reserves_reservePath {clear_cells : ℤ} {segs : List (GridPos × GridPos)}
    (h : reservePath net_id clear_cells segs obs = Except.ok obs') : Reserves net_id obs obs' := by
  induction segs generalizing obs with
  | nil =>
    cases h
    exact Reserves.refl net_id _
  | cons seg segs ih =>
    unfold reservePath at h
    split at h
    · cases h
    · rename_i mid hline
      exact (reserves_blockLine hline).trans (ih h)

end Reserves

/-! ## Around a line -/

/-- The cells within a radius of a position on its layer are clear for the net. -/
def AroundClear (obs : ObstacleMap) (net_id : String) (radius : ℤ) (c : GridPos) : Prop :=
  ∀ p, p.layer = c.layer → chebyshev c p ≤ radius → obs.Clear net_id p
variable {obs obs' : ObstacleMap}

theorem AroundClear.reserves {net_id other : String} {radius : ℤ} {c : GridPos} (h : AroundClear obs net_id radius c)
    (hres : Reserves other obs obs') : AroundClear obs' net_id radius c :=
  fun p hlayer hp => hres.clear (h p hlayer hp)

theorem exists_edge_of_not_inBounds {obs : ObstacleMap} {c p : GridPos} {radius : ℤ}
    (hc : obs.inBounds c) (hlayer : p.layer = c.layer) (hp : chebyshev c p ≤ radius)
    (hout : ¬ obs.inBounds p) :
    ∃ b, obs.inBounds b ∧ ¬ obs.Inner b ∧ b.layer = c.layer ∧ chebyshev c b ≤ radius := by
  obtain ⟨hl, hx, hy⟩ := inBounds_iff.mp hc
  simp only [chebyshev, max_le_iff, abs_le] at hp
  have hout' : ¬ ((0 ≤ p.x ∧ p.x < obs.width) ∧ 0 ≤ p.y ∧ p.y < obs.height) := by
    rintro ⟨hpx, hpy⟩
    exact hout (inBounds_iff.mpr ⟨hlayer ▸ hl, hpx, hpy⟩)
  -- the nearest cell of the grid, which is on the edge as the position is not on the grid
  refine ⟨⟨max 0 (min (obs.width - 1) p.x), max 0 (min (obs.height - 1) p.y), c.layer⟩, ?_, ?_, rfl, ?_⟩
  · exact inBounds_iff.mpr ⟨hl, by dsimp only; omega, by dsimp only; omega⟩
  · rintro ⟨-, hbx, hby⟩
    dsimp only at hbx hby
    omega
  · simp only [chebyshev, max_le_iff, abs_le]
    omega

variable {p0 p1 c : GridPos}

/-- **Around a line that is reserved** on a walled map the cells are on the grid and clear. -/
theorem clear_of_blockLine {net_id : String} {radius : ℤ} (hwalled : obs.Walled)
    (h : obs.blockLine p0 p1 radius (some net_id) = Except.ok obs') (hline : c ∈ lineCells p0 p1) (hc : obs.inBounds c) :
    AroundClear obs' net_id radius c := by
  obtain ⟨hfree, rfl⟩ := blockLine_ok_iff.mp h
  have hreserved : ∀ p, obs.inBounds p → p.layer = c.layer → chebyshev c p ≤ radius →
      p ∈ obs.reservations p0 p1 radius := fun p hin hlayer hp =>
    mem_reservations.mpr ⟨hin, c, hline, hlayer, hp⟩
  -- every cell that is reserved passed the test of the reservation
  have htest : ∀ p ∈ obs.reservations p0 p1 radius, obs.cells p = false ∧
      obs.pad_conflicts p = false ∧ ∀ pad, obs.pads p = some pad → pad = some net_id := by
    intro p hp
    have hres := hfree p hp
    simp only [isReserved, hwalled.static, Bool.true_and, Bool.or_eq_false_iff] at hres
    refine ⟨hres.2, hres.1.1.2, fun pad hpad => ?_⟩
    have hpads := hres.1.2
    simpa [hpad] using hpads
  intro p hlayer hp
  have hin : obs.inBounds p := by
    by_contra hout
    obtain ⟨b, hbin, hedge, hblayer, hb⟩ := exists_edge_of_not_inBounds hc hlayer hp hout
    have hblocked := hwalled.border b hbin hedge
    rw [(htest b (hreserved b hbin hblayer hb)).1] at hblocked
    cases hblocked
  have hmem := hreserved p hin hlayer hp
  obtain ⟨hcells, hconflict, hpads⟩ := htest p hmem
  exact ⟨hin, hcells, hconflict, hpads, if_pos hmem⟩

theorem clear_of_reservePath {net_id : String} {clear_cells : ℤ} {segs : List (GridPos × GridPos)}
    (hwalled : obs.Walled) (h : reservePath net_id clear_cells segs obs = Except.ok obs') (hseg : (p0, p1) ∈ segs)
    (hline : c ∈ lineCells p0 p1) (hc : obs.inBounds c) : AroundClear obs' net_id clear_cells c := by
  induction segs generalizing obs with
  | nil => exact absurd hseg not_mem_nil
  | cons seg segs ih =>
    obtain ⟨first, second⟩ := seg
    unfold reservePath at h
    split at h
    · cases h
    · rename_i mid hmid
      have hstep := reserves_blockLine hmid
      rcases mem_cons.mp hseg with heq | hseg
      · obtain ⟨rfl, rfl⟩ := Prod.mk.inj heq
        exact (clear_of_blockLine hwalled hmid hline hc).reserves (reserves_reservePath h)
      · exact ih (hstep.walled hwalled) h hseg (hstep.inBounds_iff.mpr hc)

/-! ## One edge -/

theorem inBounds_of_mem_lineCells {obs : ObstacleMap} (h0 : obs.inBounds p0) (h1 : obs.inBounds p1)
    (hc : c ∈ lineCells p0 p1) : obs.inBounds c := by
  obtain ⟨hlayer, hx, hy⟩ := lineCells_between hc
  obtain ⟨hl0, hx0, hy0⟩ := inBounds_iff.mp h0
  obtain ⟨-, hx1, hy1⟩ := inBounds_iff.mp h1
  exact inBounds_iff.mpr ⟨by omega, by omega, by omega⟩

theorem mem_pathCells_of_mem {path : List GridPos} {c : GridPos} (hlength : 2 ≤ path.length)
    (hc : c ∈ path) : c ∈ pathCells path := by
  unfold pathCells
  fun_induction segments path with
  | case1 p q rest ih =>
    have hends : p ∈ segmentCells p q ∧ q ∈ segmentCells p q := by
      unfold segmentCells
      split
      · rename_i hlayer
        exact ⟨mem_lineCells_start p q, mem_lineCells_end hlayer⟩
      · exact ⟨mem_cons_self, mem_cons_of_mem _ mem_cons_self⟩
    rw [flatMap_cons]
    rcases mem_cons.mp hc with rfl | hc
    · exact mem_append_left _ hends.1
    · cases rest with
      | nil =>
        obtain rfl := mem_singleton.mp hc
        exact mem_append_left _ hends.2
      | cons r rest => exact mem_append_right _ (ih (by simp) hc)
  | case2 path hshort =>
    obtain _ | ⟨p, _ | ⟨q, rest⟩⟩ := path
    · exact absurd hc not_mem_nil
    · simp at hlength
    · exact absurd rfl (hshort p q rest)

theorem segments_eq_nil {path : List GridPos} (h : path.length ≤ 1) : segments path = [] := by
  match path, h with
  | [], _ => rfl
  | [_], _ => rfl

section Edge

variable {κ : Type} [Zero κ] [One κ] [Add κ] [Sub κ] [Mul κ] [IntCast κ] [LT κ] [DecidableLT κ]
variable {router : GridRouter κ} {obs obs' : ObstacleMap} {net_id : String}
  {clear_cells radius layer : ℤ} {start goal : GridPos} {path : List GridPos}
  {grid_positions : List (ℤ × ℤ)}

theorem ends_of_astar_padAware (hpad : router.pad_aware = true)
    (hpath : router.astar obs start goal (some net_id) radius = some path) :
    path.head? = some start ∧ path.getLast? = some goal := by
  obtain ⟨s, g, hs, hg, -, hhead, hlast⟩ := astar_sound hpath
  have hfree : obs.isFree start (some net_id) ∧ obs.isFree goal (some net_id) := by
    by_contra hblocked
    rw [not_and_or] at hblocked
    rw [GridRouter.astar, if_pos ⟨hpad, hblocked⟩] at hpath
    cases hpath
  rw [resolveAstarEndpoint, if_pos hfree.1] at hs
  rw [resolveAstarEndpoint, if_pos hfree.2] at hg
  obtain rfl := Option.some.inj hs
  obtain rfl := Option.some.inj hg
  exact ⟨hhead, hlast⟩

/-- The cells around a path that is reserved are clear: the path stays on its layer, so each of its cells
is on a line. -/
theorem clear_of_edge (hpad : router.pad_aware = true) (hwalled : obs.Walled)
    (hpath : router.astar obs start goal (some net_id) radius = some path)
    (hres : reservePath net_id clear_cells (segments (simplifyPath path)) obs = Except.ok obs')
    {c : GridPos} (hc : c ∈ pathCells (simplifyPath path)) : AroundClear obs' net_id clear_cells c := by
  obtain ⟨⟨p0, p1⟩, hseg, hc⟩ := mem_flatMap.mp hc
  obtain ⟨h0, h1⟩ := mem_of_mem_segments hseg
  have hin : ∀ p ∈ simplifyPath path, obs.inBounds p := fun p hp =>
    inBounds_of_isFree (isFree_of_astar hpath p (mem_of_mem_simplifyPath hp))
  obtain ⟨-, -, -, -, hchain, -, -⟩ := astar_sound hpath
  rw [hpad] at hchain
  have hlayer : p0.layer = p1.layer := by
    cases path with
    | nil => cases hseg
    | cons first path =>
      have hsame := layer_eq_of_isChain hchain
      exact (hsame p0 (mem_of_mem_simplifyPath h0)).trans (hsame p1 (mem_of_mem_simplifyPath h1)).symm
  dsimp only [segmentCells] at hc
  rw [if_pos hlayer] at hc
  exact clear_of_reservePath hwalled hres hseg hc (inBounds_of_mem_lineCells (hin p0 h0) (hin p1 h1) hc)

/-- A path that is routed for an edge of the tree: it ends at the second position, is a single cell
where the positions coincide, and has both among its cells where they do not. -/
def RoutesEdge (grid_positions : List (ℤ × ℤ)) (layer : ℤ) (e : ℕ × ℕ) (path : List GridPos) : Prop :=
  ∃ p q, grid_positions[e.1]? = some p ∧ grid_positions[e.2]? = some q ∧
    path.getLast? = some ⟨q.1, q.2, layer⟩ ∧ (p = q → path.length ≤ 1) ∧
    (p ≠ q → (⟨p.1, p.2, layer⟩ : GridPos) ∈ pathCells path ∧
      (⟨q.1, q.2, layer⟩ : GridPos) ∈ pathCells path)

theorem routesEdge_of_astar (hpad : router.pad_aware = true) {e : ℕ × ℕ} {p q : ℤ × ℤ}
    (hp : grid_positions[e.1]? = some p) (hq : grid_positions[e.2]? = some q)
    (hpath : router.astar obs ⟨p.1, p.2, layer⟩ ⟨q.1, q.2, layer⟩ (some net_id) radius = some path) :
    RoutesEdge grid_positions layer e (simplifyPath path) := by
  obtain ⟨hhead, hlast⟩ := ends_of_astar_padAware hpad hpath
  refine ⟨p, q, hp, hq, by rw [getLast?_simplifyPath, hlast], ?_, ?_⟩
  · rintro rfl
    have hlength := astar_self hpath
    match path, hlength with
    | [_], _ => exact le_rfl
  · intro hne
    refine (ends_of_edge hpath hhead hlast).1 fun heq => hne ?_
    obtain ⟨hx, hy, -⟩ := GridPos.mk.inj heq
    exact Prod.ext hx hy

theorem routeMstPaths_padAware (hpad : router.pad_aware = true) {edges : List (ℕ × ℕ)}
    {paths : List (List GridPos)} (hwalled : obs.Walled)
    (h : router.routeMstPaths grid_positions layer clear_cells net_id edges obs = some (paths, obs')) :
    List.Forall₂ (RoutesEdge grid_positions layer) edges paths ∧ Reserves net_id obs obs' ∧
      ∀ c ∈ paths.flatMap pathCells, AroundClear obs' net_id clear_cells c := by
  induction edges generalizing obs paths with
  | nil =>
    cases h
    exact ⟨List.Forall₂.nil, Reserves.refl net_id _, fun c hc => absurd hc not_mem_nil⟩
  | cons edge edges ih =>
    obtain ⟨first, second⟩ := edge
    obtain ⟨p, q, path, mid, rest, hp, hq, hpath, hres, hrest, rfl⟩ := routeMstPaths_cons h
    have hstep := reserves_reservePath hres
    obtain ⟨hroutes, hreserves, hclear⟩ := ih (hstep.walled hwalled) hrest
    refine ⟨List.Forall₂.cons (routesEdge_of_astar hpad hp hq hpath) hroutes,
      hstep.trans hreserves, fun c hc => ?_⟩
    rw [flatMap_cons] at hc
    rcases mem_append.mp hc with hc | hc
    · exact (clear_of_edge hpad hwalled hpath hres hc).reserves hreserves
    · exact hclear c hc

end Edge

/-! ## One net -/

/-- The cells of a net's committed paths: their corners, and the cells of their segments. -/
def committedCells (plan : GridNetPlan) : List GridPos :=
  plan.edge_paths.flatMap fun path => path ++ pathCells path

def emittedSegments (plan : GridNetPlan) : List (GridPos × GridPos) := plan.edge_paths.flatMap segments

theorem exists_of_mem_forall₂ {α β : Type} {R : α → β → Prop} {as : List α} {bs : List β}
    (h : List.Forall₂ R as bs) {b : β} (hb : b ∈ bs) : ∃ a ∈ as, R a b := by
  induction h with
  | nil => exact absurd hb not_mem_nil
  | cons hab _ ih =>
    rcases mem_cons.mp hb with rfl | hb
    · exact ⟨_, mem_cons_self, hab⟩
    · obtain ⟨a, ha, hR⟩ := ih hb
      exact ⟨a, mem_cons_of_mem _ ha, hR⟩

/-- Where a net has a segment, every cell of its paths is on the line of one: a path that is a single
cell lies at a grid position, and the tree joins that to the others. -/
theorem mem_pathCells_of_committed {grid_positions : List (ℤ × ℤ)} {layer : ℤ}
    {paths : List (List GridPos)}
    (hroutes : List.Forall₂ (RoutesEdge grid_positions layer) (mst grid_positions) paths)
    (hsegment : paths.flatMap segments ≠ []) {c : GridPos}
    (hc : c ∈ paths.flatMap fun path => path ++ pathCells path) : c ∈ paths.flatMap pathCells := by
  obtain ⟨path, hpath, hc⟩ := mem_flatMap.mp hc
  rcases mem_append.mp hc with hc | hc
  · by_cases hlength : 2 ≤ path.length
    · exact mem_flatMap.mpr ⟨path, hpath, mem_pathCells_of_mem hlength hc⟩
    · obtain ⟨_, -, p, q, -, hq, hlast, -⟩ := exists_of_mem_forall₂ hroutes hpath
      have hcq : c = ⟨q.1, q.2, layer⟩ := by
        match path, hc, hlength, hlast with
        | [_], hc, _, hlast => exact (mem_singleton.mp hc).trans (Option.some.inj hlast)
        | _ :: _ :: _, _, hlength, _ => exact absurd (by simp) hlength
      -- some edge joins different positions, as there is a segment
      obtain ⟨seg, hseg⟩ := exists_mem_of_ne_nil _ hsegment
      obtain ⟨path', hpath', hseg⟩ := mem_flatMap.mp hseg
      obtain ⟨_, -, p', q', hp', hq', -, hsingle, -⟩ := exists_of_mem_forall₂ hroutes hpath'
      have hne : p' ≠ q' := by
        intro heq
        rw [segments_eq_nil (hsingle heq)] at hseg
        exact absurd hseg not_mem_nil
      have hother : ∃ g ∈ grid_positions, g ≠ q := by
        by_cases heq : p' = q
        · exact ⟨q', mem_of_getElem? hq', fun h => hne (heq.trans h.symm)⟩
        · exact ⟨p', mem_of_getElem? hp', heq⟩
      obtain ⟨g, hg, hgq⟩ := hother
      obtain ⟨e, he, a, b, ha, hb, hab, heither⟩ := exists_edge_of_ne (mem_of_getElem? hq) hg hgq
      obtain ⟨path'', hpath'', a', b', ha', hb', -, -, hends⟩ :=
        exists_of_mem_forall₂ hroutes.flip he
      obtain rfl : a = a' := Option.some.inj (ha.symm.trans ha')
      obtain rfl : b = b' := Option.some.inj (hb.symm.trans hb')
      obtain ⟨hstart, hgoal⟩ := hends hab
      refine mem_flatMap.mpr ⟨path'', hpath'', ?_⟩
      rw [hcq]
      rcases heither with rfl | rfl
      · exact hstart
      · exact hgoal
  · exact mem_flatMap.mpr ⟨path, hpath, hc⟩

section Run

variable {κ : Type} [Zero κ] [One κ] [Add κ] [Sub κ] [Mul κ] [IntCast κ] [LT κ] [DecidableLT κ]
variable {router : GridRouter κ} {kb : KnowledgeBase} {pins : PinGeometry} {design : RoutedDesign}

theorem planGridNet_padAware (hpad : router.pad_aware = true) {net : Net} {context : GridRouteContext}
    (h : (planGridNet router kb pins design net context).1.success = true) :
    ∃ layer paths obs',
      router.routeMstPaths (gridPositions router pins net context) layer
        (clearCells router kb design net.id) net.id (mst (gridPositions router pins net context))
        context.obstacles = some (paths, obs') ∧
      planGridNet router kb pins design net context =
        (⟨true, true, net.id, (kb.getRule (getNetClass design net.id)).trace_width, paths⟩,
          { context with obstacles := obs' }) := by
  obtain ⟨-, layer, paths, obs', -, hpaths, heq⟩ := exists_routeMstPaths h
  rw [stagedMap, if_pos hpad] at hpaths
  exact ⟨layer, paths, obs', hpaths, heq⟩

/-- What a run with pad copper keeps: the map is walled and differs from the first only in its owners,
and around the nets that are routed it is clear. -/
structure PadInv (router : GridRouter κ) (kb : KnowledgeBase) (design : RoutedDesign)
    (context : GridRouteContext) (s : GridRouteContext × RouteState) : Prop where
  walled : s.1.obstacles.Walled
  owners : s.1.obstacles = { context.obstacles with copper := s.1.obstacles.copper }
  clear : ∀ plan ∈ s.2.routed, emittedSegments plan ≠ [] → ∀ c ∈ committedCells plan,
    AroundClear s.1.obstacles plan.net_id (clearCells router kb design plan.net_id) c

theorem padInv_routeNet (hpad : router.pad_aware = true) {context : GridRouteContext}
    {s : GridRouteContext × RouteState} (hinv : PadInv router kb design context s) (net : Net) :
    PadInv router kb design context (routeNet router kb pins design s net) := by
  cases hsuccess : (planGridNet router kb pins design net s.1).1.success with
  | false =>
    obtain ⟨hcontext, hrouted⟩ := routeNet_of_not_success hsuccess
    refine ⟨hcontext ▸ hinv.walled, hcontext ▸ hinv.owners, ?_⟩
    rw [hrouted, hcontext]
    exact hinv.clear
  | true =>
    obtain ⟨layer, paths, obs', hpaths, heq⟩ := planGridNet_padAware hpad hsuccess
    obtain ⟨hroutes, hreserves, hclear⟩ := routeMstPaths_padAware hpad hinv.walled hpaths
    obtain ⟨hcontext, hrouted⟩ := routeNet_of_success heq rfl rfl
    have howners : obs' = { context.obstacles with copper := obs'.copper } := by
      rw [hreserves.eq_withCopper, hinv.owners]
    refine ⟨?_, ?_, ?_⟩
    · rw [hcontext]
      exact hreserves.walled hinv.walled
    · rw [hcontext]
      exact howners
    · rw [hcontext, hrouted]
      intro plan hplan hsegment c hc
      rcases mem_append.mp hplan with hplan | hplan
      · exact (hinv.clear plan hplan hsegment c hc).reserves hreserves
      · obtain rfl := mem_singleton.mp hplan
        exact hclear c (mem_pathCells_of_committed hroutes hsegment hc)

/-- **Clearance with pad copper.** On every walled map, with whatever blocks, pads, conflicts of pads and
nets on it, and for every list of nets: where a net has a segment, each cell within its clearance of a
cell of its paths is on the grid and the net's own, and no block, no conflict of pads and no pad but the
net's is there. Blocks and pads are those of the map before. -/
theorem paths_clear (hpad : router.pad_aware = true) (context : GridRouteContext)
    (hwalled : context.obstacles.Walled) (nets : List Net) :
    PadInv router kb design context
      (nets.foldl (routeNet router kb pins design) (context, ⟨[], [], 0⟩)) := by
  refine foldlRecOn (motive := PadInv router kb design context) nets _ ?_
    fun s hinv net _ => padInv_routeNet hpad hinv net
  exact ⟨hwalled, rfl, fun plan hplan => absurd hplan not_mem_nil⟩

end Run

/-! ### A net between two pads -/

/-- A component with one pad at its position, on the top layer. -/
def pinComponent (id : String) : Component :=
  ⟨id, id, some ⟨(1 / 2, 1 / 2), [⟨"1", (0, 0), fun _ => [0]⟩]⟩, none⟩

def pinDesign : RoutedDesign where
  components := ["J1", "J2"].map pinComponent
  nets := [pointNet "SIG" "J1" "J2"]
  nets_nodup := by decide
  net_classes := Dict.empty
  width := 10 / 4
  height := 2
  layers := 1

/-- Every pin is on the first pad of its component. -/
def pinGeometry : PinGeometry where
  padForPin := fun comp _ => comp.footprint_def.bind fun fp => fp.pads.head?
  routePointForNode := fun _ _ pos => pos
  rotatedOffset := fun x y _ => (x, y)

def pinRouter : GridRouter ℚ := { defaultRouter with pad_aware := true }

/-- The pads of the net three cells apart, a pad of another net and a mounting hole below. -/
def pinContext : GridRouteContext where
  obstacles := padOccupancy 10 8 1
    [.pad ⟨3, 3, 0⟩ (some "SIG"), .pad ⟨6, 3, 0⟩ (some "SIG"), .pad ⟨4, 5, 0⟩ (some "GND"),
      .block ⟨7, 6, 0⟩]
  grid_w := 10
  grid_h := 8
  num_layers := 1
  ref_positions := (Dict.empty.set "J1" (3 / 4, 3 / 4)).set "J2" (6 / 4, 3 / 4)
  component_by_ref := (Dict.empty.set "J1" (pinComponent "J1")).set "J2" (pinComponent "J2")
  rotation_by_ref := Dict.empty

/-- The net is routed by one segment, and the cells around it are clear. -/
theorem paths_clear_twoPads :
    ((pinDesign.nets.foldl (routeNet pinRouter viaRules pinGeometry pinDesign)
        (pinContext, ⟨[], [], 0⟩)).2.routed.map emittedSegments) = [[(⟨3, 3, 0⟩, ⟨6, 3, 0⟩)]] ∧
      PadInv pinRouter viaRules pinDesign pinContext
        (pinDesign.nets.foldl (routeNet pinRouter viaRules pinGeometry pinDesign)
          (pinContext, ⟨[], [], 0⟩)) :=
  ⟨by with_unfolding_all decide, paths_clear rfl pinContext (walled_padOccupancy 10 8 1 _) pinDesign.nets⟩

end ZapTrace
