import ZapTrace.Algo.GridOwnership
import ZapTrace.Algo.SpanningTree

/-!
# The cells of a routed net

The cells of a net's path are its segments on their layers, and both cells of each layer change.
Reserving a segment takes the cells within the clearance around the line on the layer the segment
starts on. So the cells around the path are the net's, with one exception: when a path ends with a
layer change, nothing starts at its last cell. Around that cell, which is a grid position of the net,
each cell inside the board was opened for the net or belongs to another.

## Main results

* `mem_pathCells`: a cell of a path is on a line that is reserved, or the last
* `routeMstPaths_spec`: the cells of the edges of a net
* `routed_planGridNet`: a net that is routed without pad copper
-/

namespace ZapTrace

open List hiding getElem?_eq_some_iff
open ObstacleMap GridRouter Option

/-! ## The cells of a path -/

/-- The cells of a segment: its line on its layer, or both cells of a layer change. -/
def segmentCells (p0 p1 : GridPos) : List GridPos :=
  if p0.layer = p1.layer then lineCells p0 p1 else [p0, p1]

def pathCells (path : List GridPos) : List GridPos :=
  (segments path).flatMap fun seg => segmentCells seg.1 seg.2

def occupiedCells (plan : GridNetPlan) : List GridPos := plan.edge_paths.flatMap pathCells

theorem mem_of_mem_segments {path : List GridPos} {p q : GridPos} (h : (p, q) ∈ segments path) :
    p ∈ path ∧ q ∈ path := by
  fun_induction segments path with
  | case1 a b rest ih =>
    rcases mem_cons.mp h with heq | h
    · obtain ⟨rfl, rfl⟩ := Prod.mk.inj heq
      exact ⟨mem_cons_self, mem_cons_of_mem _ mem_cons_self⟩
    · exact ⟨mem_cons_of_mem _ (ih h).1, mem_cons_of_mem _ (ih h).2⟩
  | case2 => exact absurd h not_mem_nil

theorem rel_of_mem_segments {R : GridPos → GridPos → Prop} {path : List GridPos} (h : path.IsChain R) {p q : GridPos}
    (hseg : (p, q) ∈ segments path) : R p q := by
  fun_induction segments path with
  | case1 a b rest ih =>
    rcases mem_cons.mp hseg with heq | hseg
    · obtain ⟨rfl, rfl⟩ := Prod.mk.inj heq
      exact (isChain_cons_cons.mp h).1
    · exact ih h.tail hseg
  | case2 => exact absurd hseg not_mem_nil

theorem segment_starts_or_ends {path : List GridPos} {p q : GridPos} (h : (p, q) ∈ segments path) :
    (∃ r, (q, r) ∈ segments path) ∨ path.getLast? = some q := by
  fun_induction segments path with
  | case1 a b rest ih =>
    rcases mem_cons.mp h with heq | h
    · obtain ⟨rfl, rfl⟩ := Prod.mk.inj heq
      cases rest with
      | nil => exact Or.inr rfl
      | cons c rest => exact Or.inl ⟨c, by simp [segments]⟩
    · rcases ih h with ⟨r, hr⟩ | hlast
      · exact Or.inl ⟨r, mem_cons_of_mem _ hr⟩
      · exact Or.inr (by rw [getLast?_cons_cons]; exact hlast)
  | case2 => exact absurd h not_mem_nil

theorem exists_segment_to_last (first : GridPos) (inner : List GridPos) (last : GridPos) :
    ∃ p, (p, last) ∈ segments (first :: inner ++ [last]) := by
  induction inner generalizing first with
  | nil => exact ⟨first, by simp [segments]⟩
  | cons a inner ih =>
    obtain ⟨p, hp⟩ := ih a
    exact ⟨p, mem_cons_of_mem _ hp⟩

theorem ends_mem_pathCells (first : GridPos) (inner : List GridPos) (last : GridPos) :
    first ∈ pathCells (first :: inner ++ [last]) ∧ last ∈ pathCells (first :: inner ++ [last]) := by
  constructor
  · obtain ⟨second, hsecond⟩ : ∃ second, (first, second) ∈ segments (first :: inner ++ [last]) := by
      cases inner with
      | nil => exact ⟨last, by simp [segments]⟩
      | cons a inner => exact ⟨a, by simp [segments]⟩
    refine mem_flatMap.mpr ⟨_, hsecond, ?_⟩
    unfold segmentCells
    split
    · exact mem_lineCells_start _ _
    · exact mem_cons_self
  · obtain ⟨p, hp⟩ := exists_segment_to_last first inner last
    refine mem_flatMap.mpr ⟨_, hp, ?_⟩
    unfold segmentCells
    split
    · rename_i hlayer
      exact mem_lineCells_end hlayer
    · exact mem_cons_of_mem _ mem_cons_self

/-- The cells of a path are on a line that starts with it, or its last cell. -/
theorem mem_pathCells {path : List GridPos} {c : GridPos} (hc : c ∈ pathCells path) :
    (∃ p0 p1, (p0, p1) ∈ segments path ∧ c ∈ lineCells p0 p1) ∨ path.getLast? = some c := by
  obtain ⟨⟨p0, p1⟩, hseg, hc⟩ := mem_flatMap.mp hc
  dsimp only [segmentCells] at hc
  split at hc
  · exact Or.inl ⟨p0, p1, hseg, hc⟩
  · rcases mem_cons.mp hc with rfl | hc
    · exact Or.inl ⟨c, p1, hseg, mem_lineCells_start _ _⟩
    · obtain rfl := mem_singleton.mp hc
      rcases segment_starts_or_ends hseg with ⟨r, hr⟩ | hlast
      · exact Or.inl ⟨c, r, hr, mem_lineCells_start _ _⟩
      · exact Or.inr hlast

theorem inner_of_mem_lineCells {obs : ObstacleMap} {p0 p1 c : GridPos} (h0 : obs.Inner p0)
    (h1 : obs.Inner p1) (hc : c ∈ lineCells p0 p1) : obs.Inner c := by
  obtain ⟨hlayer, hx, hy⟩ := lineCells_between hc
  obtain ⟨hlayer0, hx0, hy0⟩ := h0
  obtain ⟨-, hx1, hy1⟩ := h1
  exact ⟨by omega, by omega, by omega⟩

/-! ## One edge -/

/-- The cells within a radius of a position on its layer are the net's. -/
def AroundOwned (obs : ObstacleMap) (net_id : String) (radius : ℤ) (c : GridPos) : Prop :=
  ∀ p, obs.inBounds p → p.layer = c.layer → chebyshev c p ≤ radius → obs.copper p = some net_id

theorem AroundOwned.grows {obs obs' : ObstacleMap} {net_id : String} {radius : ℤ} {c : GridPos}
    (h : AroundOwned obs net_id radius c) (hgrows : Grows net_id obs obs') :
    AroundOwned obs' net_id radius c :=
  fun p hin hlayer hp => hgrows.kept p net_id (h p (hgrows.inBounds_iff.mp hin) hlayer hp)

section Edge

variable {κ : Type} [Zero κ] [One κ] [Add κ] [Sub κ] [Mul κ] [IntCast κ] [LT κ] [DecidableLT κ]
variable {router : GridRouter κ} {obs obs' : ObstacleMap} {net_id : String}
  {clear_cells radius : ℤ} {start goal : GridPos} {path : List GridPos}

/-- The ends of a path that is found are its start and its goal, when these are inside the board as soon
as anything is, and claimed. -/
theorem ends_of_astar (hplain : obs.Plain)
    (hinner : ∀ c, obs.Inner c → obs.Inner start ∧ obs.Inner goal)
    (hclaimed : obs.Inner start → obs.Inner goal → Claimed net_id obs start ∧ Claimed net_id obs goal)
    (hpath : router.astar obs start goal (some net_id) radius = some path) :
    path.head? = some start ∧ path.getLast? = some goal ∧ obs.copper goal = some net_id := by
  obtain ⟨s, g, hs, hg, -, hhead, hlast⟩ := astar_sound hpath
  obtain ⟨hstart, hgoal⟩ := hinner s (hplain.inner_of_isFree (isFree_of_resolve hs))
  obtain ⟨hcstart, hcgoal⟩ := hclaimed hstart hgoal
  obtain ⟨rfl, -⟩ := resolve_of_claimed hplain hstart hcstart hs
  obtain ⟨rfl, howner⟩ := resolve_of_claimed hplain hgoal hcgoal hg
  exact ⟨hhead, hlast, howner⟩

/-- What holds of the cells of an edge that is routed: they are inside the board and the net's, and so
are the cells around them, except for the goal. -/
def EdgeCell (obs : ObstacleMap) (net_id : String) (clear_cells : ℤ) (goal c : GridPos) : Prop :=
  obs.Inner c ∧ obs.copper c = some net_id ∧ (c = goal ∨ AroundOwned obs net_id clear_cells c)

theorem edgeCell_of_reserved (hplain : obs.Plain) (hclear : 0 ≤ clear_cells)
    (hpath : router.astar obs start goal (some net_id) radius = some path)
    (hlast : path.getLast? = some goal) (howner : obs.copper goal = some net_id)
    (hres : reservePath net_id clear_cells (segments (simplifyPath path)) obs = Except.ok obs')
    {c : GridPos} (hc : c ∈ pathCells (simplifyPath path)) :
    EdgeCell obs' net_id clear_cells goal c := by
  have hgrows := grows_reservePath hres
  have hcells : ∀ p ∈ simplifyPath path, obs.Inner p := fun p hp =>
    hplain.inner_of_isFree (isFree_of_astar hpath p (mem_of_mem_simplifyPath hp))
  rcases mem_pathCells hc with ⟨p0, p1, hseg, hline⟩ | hend
  · obtain ⟨h0, h1⟩ := mem_of_mem_segments hseg
    have hinner := inner_of_mem_lineCells (hcells p0 h0) (hcells p1 h1) hline
    have haround : AroundOwned obs' net_id clear_cells c := fun p hin hlayer hp =>
      reserved_of_reservePath hres hseg hline (hgrows.inBounds_iff.mp hin) hlayer hp
    refine ⟨hgrows.inner_iff.mpr hinner, ?_, Or.inr haround⟩
    exact haround c (hgrows.inBounds_iff.mpr hinner.inBounds) rfl (by simpa [chebyshev] using hclear)
  · rw [getLast?_simplifyPath, hlast] at hend
    obtain rfl : goal = c := some.inj hend
    have hfree := isFree_of_astar hpath goal (mem_of_getLast? hlast)
    exact ⟨hgrows.inner_iff.mpr (hplain.inner_of_isFree hfree), hgrows.kept goal net_id howner,
      Or.inl rfl⟩

/-- An edge between different positions has both among its cells; one between equal positions has no
cells. -/
theorem ends_of_edge (hpath : router.astar obs start goal (some net_id) radius = some path)
    (hhead : path.head? = some start) (hlast : path.getLast? = some goal) :
    (start ≠ goal → start ∈ pathCells (simplifyPath path) ∧ goal ∈ pathCells (simplifyPath path)) ∧
      (start = goal → pathCells (simplifyPath path) = []) := by
  constructor
  · intro hne
    match path, hhead, hlast with
    | [_], hhead, hlast => exact absurd ((some.inj hhead).symm.trans (some.inj hlast)) hne
    | first :: second :: rest, hhead, hlast =>
      have hends := ends_mem_pathCells first (innerCorners (first :: second :: rest))
        ((second :: rest).getLast (cons_ne_nil _ _))
      rw [simplifyPath_cons_cons]
      rw [getLast?_cons_cons, getLast?_eq_some_getLast (cons_ne_nil _ _)] at hlast
      obtain rfl : first = start := some.inj hhead
      obtain rfl := some.inj hlast
      exact hends
  · rintro rfl
    have hlength := astar_self hpath
    match path, hlength with
    | [_], _ => rfl

end Edge

/-! ## One net -/

/-- What planning a net gives: the map has grown by it, and its path is on the map. -/
structure Planned (obs obs' : ObstacleMap) (net_id : String) (clear_cells layer : ℤ)
    (grid_positions : List (ℤ × ℤ)) (cells : List GridPos) : Prop where
  grows : Grows net_id obs obs'
  inner : ∀ c ∈ cells, obs'.Inner c
  owned : ∀ c ∈ cells, obs'.copper c = some net_id
  /-- No cell around the path is left to the nets that follow. -/
  claimed : ∀ c ∈ cells, ∀ p, obs'.Inner p → p.layer = c.layer → chebyshev c p ≤ clear_cells →
    obs'.copper p ≠ none
  /-- The cells around the path are the net's, except around a grid position. -/
  reserved : ∀ c ∈ cells, AroundOwned obs' net_id clear_cells c ∨
    ∃ g ∈ grid_positions, (∃ g' ∈ grid_positions, g' ≠ g) ∧ c = ⟨g.1, g.2, layer⟩
  /-- Grid positions that do not all coincide are on the path. -/
  ends : ∀ g ∈ grid_positions, (∃ g' ∈ grid_positions, g' ≠ g) →
    (⟨g.1, g.2, layer⟩ : GridPos) ∈ cells

section Net

variable {κ : Type} [Zero κ] [One κ] [Add κ] [Sub κ] [Mul κ] [IntCast κ] [LT κ] [DecidableLT κ]
variable {router : GridRouter κ} {kb : KnowledgeBase} {pins : PinGeometry} {design : RoutedDesign}
  {obs obs' : ObstacleMap} {net_id : String} {clear_cells layer : ℤ} {grid_positions : List (ℤ × ℤ)}

/-- What is needed of the map before an edge is routed: the grid positions are inside the board as soon
as anything is, and claimed. -/
structure Ready (obs : ObstacleMap) (net_id : String) (layer : ℤ) (grid_positions : List (ℤ × ℤ)) :
    Prop where
  plain : obs.Plain
  inner : ∀ c, obs.Inner c → ∀ g ∈ grid_positions, obs.Inner ⟨g.1, g.2, layer⟩
  claimed : ∀ g ∈ grid_positions, obs.Inner ⟨g.1, g.2, layer⟩ → Claimed net_id obs ⟨g.1, g.2, layer⟩

theorem Ready.grows (h : Ready obs net_id layer grid_positions) (hgrows : Grows net_id obs obs') :
    Ready obs' net_id layer grid_positions where
  plain := hgrows.plain h.plain
  inner := fun c hc g hg => hgrows.inner_iff.mpr (h.inner c (hgrows.inner_iff.mp hc) g hg)
  claimed := fun g hg hinner => (h.claimed g hg (hgrows.inner_iff.mp hinner)).grows hgrows

/-- The cells of the edges that are routed, and where their ends are. -/
theorem routeMstPaths_spec (hclear : 0 ≤ clear_cells) {edges : List (ℕ × ℕ)}
    {paths : List (List GridPos)} (hready : Ready obs net_id layer grid_positions)
    (h : router.routeMstPaths grid_positions layer clear_cells net_id edges obs = some (paths, obs')) :
    (∀ c ∈ paths.flatMap pathCells, ∃ e ∈ edges, ∃ p q, grid_positions[e.1]? = some p ∧
      grid_positions[e.2]? = some q ∧ p ≠ q ∧
        EdgeCell obs' net_id clear_cells ⟨q.1, q.2, layer⟩ c) ∧
    (∀ e ∈ edges, ∀ p q, grid_positions[e.1]? = some p → grid_positions[e.2]? = some q → p ≠ q →
      (⟨p.1, p.2, layer⟩ : GridPos) ∈ paths.flatMap pathCells ∧
        (⟨q.1, q.2, layer⟩ : GridPos) ∈ paths.flatMap pathCells) := by
  induction edges generalizing obs paths with
  | nil =>
    cases h
    exact ⟨fun c hc => absurd hc not_mem_nil, fun e he => absurd he not_mem_nil⟩
  | cons edge edges ih =>
    obtain ⟨first, second⟩ := edge
    obtain ⟨p, q, path, mid, rest, hp, hq, hpath, hres, hrest, rfl⟩ := routeMstPaths_cons h
    have hpmem := mem_of_getElem? hp
    have hqmem := mem_of_getElem? hq
    obtain ⟨hhead, hlast, howner⟩ := ends_of_astar hready.plain
      (fun c hc => ⟨hready.inner c hc p hpmem, hready.inner c hc q hqmem⟩)
      (fun hip hiq => ⟨hready.claimed p hpmem hip, hready.claimed q hqmem hiq⟩) hpath
    obtain ⟨hends, hnone⟩ := ends_of_edge hpath hhead hlast
    have hgrows := grows_routeMstPaths hrest
    have hposition : p ≠ q ↔ (⟨p.1, p.2, layer⟩ : GridPos) ≠ ⟨q.1, q.2, layer⟩ := by
      rw [Ne, Ne, GridPos.mk.injEq, Prod.ext_iff]
      simp
    obtain ⟨hcells, hjoined⟩ := ih (hready.grows (grows_reservePath hres)) hrest
    rw [flatMap_cons]
    constructor
    · intro c hc
      rcases mem_append.mp hc with hc | hc
      · obtain ⟨hinner, hcowner, haround⟩ :=
          edgeCell_of_reserved hready.plain hclear hpath hlast howner hres hc
        refine ⟨(first, second), mem_cons_self, p, q, hp, hq, ?_, hgrows.inner_iff.mpr hinner,
          hgrows.kept c net_id hcowner, haround.imp_right fun h => h.grows hgrows⟩
        rw [hposition]
        intro heq
        rw [hnone heq] at hc
        exact absurd hc not_mem_nil
      · obtain ⟨e, he, hcell⟩ := hcells c hc
        exact ⟨e, mem_cons_of_mem _ he, hcell⟩
    · intro e he p' q' hp' hq' hne
      rcases mem_cons.mp he with rfl | he
      · obtain rfl : p = p' := some.inj (hp.symm.trans hp')
        obtain rfl : q = q' := some.inj (hq.symm.trans hq')
        obtain ⟨hstart, hgoal⟩ := hends (hposition.mp hne)
        exact ⟨mem_append_left _ hstart, mem_append_left _ hgoal⟩
      · obtain ⟨hstart, hgoal⟩ := hjoined e he p' q' hp' hq' hne
        exact ⟨mem_append_right _ hstart, mem_append_right _ hgoal⟩

/-- A grid position that differs from another is the end of an edge between different positions. -/
theorem exists_edge_of_ne {g g' : ℤ × ℤ} (hg : g ∈ grid_positions) (hg' : g' ∈ grid_positions)
    (hne : g' ≠ g) :
    ∃ e ∈ mst grid_positions, ∃ p q, grid_positions[e.1]? = some p ∧ grid_positions[e.2]? = some q ∧
      p ≠ q ∧ (g = p ∨ g = q) := by
  obtain ⟨i, hi⟩ := mem_iff_getElem?.mp hg
  obtain ⟨j, hj⟩ := mem_iff_getElem?.mp hg'
  obtain ⟨hilt, -⟩ := List.getElem?_eq_some_iff.mp hi
  obtain ⟨hjlt, -⟩ := List.getElem?_eq_some_iff.mp hj
  obtain ⟨e, he, hcross⟩ := mst_crosses (S := fun k => grid_positions[k]? = some g) hilt hi hjlt
    (fun h => hne (some.inj (hj.symm.trans h)))
  obtain ⟨h1, h2⟩ := mst_lt he
  refine ⟨e, he, grid_positions[e.1], grid_positions[e.2], getElem?_eq_getElem h1,
    getElem?_eq_getElem h2, ?_⟩
  rw [getElem?_eq_getElem h1, getElem?_eq_getElem h2] at hcross
  rcases hcross with ⟨heq, hother⟩ | ⟨heq, hother⟩
  · obtain rfl := some.inj heq
    exact ⟨fun h => hother (congrArg some h.symm), Or.inl rfl⟩
  · obtain rfl := some.inj heq
    exact ⟨fun h => hother (congrArg some h), Or.inr rfl⟩

theorem layerForNetClass_lt (net_class : NetClass) {num_layers : ℤ} (h : 1 ≤ num_layers) :
    layerForNetClass net_class num_layers < num_layers := by
  unfold layerForNetClass
  cases net_class <;> dsimp only <;> (try split) <;> omega

/-- The map fits the context, and a net on its way is ready once its ends are opened. -/
structure ContextOk (context : GridRouteContext) : Prop where
  plain : context.obstacles.Plain
  width : context.obstacles.width = context.grid_w
  height : context.obstacles.height = context.grid_h
  layers : context.obstacles.layers = context.num_layers
  layers_pos : 1 ≤ context.num_layers

omit [Zero κ] [One κ] [Add κ] [Sub κ] [Mul κ] [IntCast κ] [LT κ] [DecidableLT κ] in
theorem inner_of_gridPosition {context : GridRouteContext} (hok : ContextOk context) {net : Net}
    {g : ℤ × ℤ} (hg : g ∈ gridPositions router pins net context) {layer : ℤ}
    (hlayer : 0 ≤ layer ∧ layer < context.num_layers) {c : GridPos} (hc : context.obstacles.Inner c) :
    context.obstacles.Inner ⟨g.1, g.2, layer⟩ := by
  obtain ⟨-, hx, hy⟩ := hc
  obtain ⟨point, -, rfl⟩ := mem_map.mp hg
  have hw := hok.width
  have hh := hok.height
  have hl := hok.layers
  dsimp only [ObstacleMap.Inner, GridRouter.toGridPoint]
  exact ⟨⟨hlayer.1, by omega⟩, by omega, by omega⟩

/-- **A net that is routed** is on the map, with its grid positions. -/
theorem routed_planGridNet (hpad : router.pad_aware = false) {net : Net} {context : GridRouteContext}
    (hok : ContextOk context)
    (h : (planGridNet router kb pins design net context).1.success = true) :
    ∃ plan obs', planGridNet router kb pins design net context =
        (plan, { context with obstacles := obs' }) ∧
      plan.routable = true ∧ plan.success = true ∧ plan.net_id = net.id ∧
      Planned context.obstacles obs' net.id (clearCells router kb design net.id)
        (layerForNetClass (getNetClass design net.id) context.num_layers)
        (gridPositions router pins net context) (occupiedCells plan) := by
  obtain ⟨layer, paths, obs', hlayer, hlayer0, hpaths, heq⟩ := planGridNet_of_success hpad h
  have hclear : 0 ≤ clearCells router kb design net.id :=
    le_trans (by decide) (le_max_right _ 1)
  have hlt := layerForNetClass_lt (getNetClass design net.id) hok.layers_pos
  rw [← hlayer] at hlt
  have hopened := grows_unblockEndpoints net.id context.obstacles layer
    (clearCells router kb design net.id) (gridPositions router pins net context)
  have hready : Ready (unblockEndpoints net.id layer (clearCells router kb design net.id)
      (gridPositions router pins net context) context.obstacles) net.id layer
      (gridPositions router pins net context) := by
    refine ⟨hopened.plain hok.plain, ?_, ?_⟩
    · intro c hc g hg
      exact hopened.inner_iff.mpr
        (inner_of_gridPosition hok hg ⟨hlayer0, hlt⟩ (hopened.inner_iff.mp hc))
    · intro g hg hinner
      exact claimed_unblockEndpoints hok.plain hg
        (mem_window.mpr ⟨rfl, by simpa [chebyshev] using hclear⟩) (hopened.inner_iff.mp hinner)
  obtain ⟨hcells, hjoined⟩ := routeMstPaths_spec hclear hready hpaths
  have hrouted := grows_routeMstPaths hpaths
  have hgrows := hopened.trans hrouted
  refine ⟨_, obs', heq, rfl, rfl, rfl, hgrows, ?_, ?_, ?_, ?_, ?_⟩
  · intro c hc
    obtain ⟨_, _, _, _, _, _, _, hinner, _⟩ := hcells c hc
    exact hinner
  · intro c hc
    obtain ⟨_, _, _, _, _, _, _, _, howner, _⟩ := hcells c hc
    exact howner
  · intro c hc p hp hplayer hdist
    obtain ⟨_, _, _, q, _, hq, _, _, _, hgoal | haround⟩ := hcells c hc
    · -- around the goal the cells were opened, or another net has them
      subst hgoal
      have hclaimed : Claimed net.id (unblockEndpoints net.id layer (clearCells router kb design net.id)
          (gridPositions router pins net context) context.obstacles) p :=
        claimed_unblockEndpoints hok.plain (mem_of_getElem? hq)
          (mem_window.mpr ⟨hplayer, hdist⟩) (hgrows.inner_iff.mp hp)
      exact (hclaimed.grows hrouted).owned
    · rw [haround p hp.inBounds hplayer hdist]
      exact some_ne_none _
  · intro c hc
    obtain ⟨_, _, p, q, hp, hq, hne, _, _, hgoal | haround⟩ := hcells c hc
    · exact Or.inr ⟨q, mem_of_getElem? hq, ⟨p, mem_of_getElem? hp, hne⟩, by
        rw [hgoal, hlayer]⟩
    · exact Or.inl haround
  · rintro g hg ⟨g', hg', hne⟩
    obtain ⟨e, he, p, q, hp, hq, hpq, heither⟩ := exists_edge_of_ne hg hg' hne
    obtain ⟨hstart, hgoal⟩ := hjoined e he p q hp hq hpq
    rw [← hlayer]
    rcases heither with rfl | rfl
    · exact hstart
    · exact hgoal

end Net

end ZapTrace
