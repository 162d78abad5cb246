import ZapTrace.Algo.ClearanceRuns
import ZapTrace.Algo.PathLines

/-!
# Connectivity of a routed net

The segments of a routed net join its cells. Each edge of the spanning tree is routed from the one grid
position to the other, unless an end is not free: then the search starts at a free cell nearby, unless
another net has the end, and the grid position itself is on no segment. The cells around the grid
positions are opened first, so an end is free when it is not on the edge of the board and holds no
copper of a pad; with pad copper on the map the search does not move an end at all.

## Main results

* `isFree_unblockEndpoints`: what is free once the cells around the grid positions are opened
* `connects_iff_usable`: when a routed net connects its grid positions
-/

namespace ZapTrace

open ObstacleMap GridRouter Relation List Option

/-! ## The graph of a plan -/

/-- Two cells are on one segment, or are joined by a change of the layer. -/
def JoinedBy (plan : GridNetPlan) (a b : GridPos) : Prop :=
  ∃ path ∈ plan.edge_paths, ∃ seg ∈ segments path,
    a ∈ segmentCells seg.1 seg.2 ∧ b ∈ segmentCells seg.1 seg.2

def Connects (plan : GridNetPlan) (layer : ℤ) (grid_positions : List (ℤ × ℤ)) : Prop :=
  ∀ g ∈ grid_positions, ∀ g' ∈ grid_positions,
    ReflTransGen (JoinedBy plan) ⟨g.1, g.2, layer⟩ ⟨g'.1, g'.2, layer⟩
variable {plan : GridNetPlan}

theorem JoinedBy.symm {a b : GridPos} (h : JoinedBy plan a b) : JoinedBy plan b a := by
  obtain ⟨path, hpath, seg, hseg, ha, hb⟩ := h
  exact ⟨path, hpath, seg, hseg, hb, ha⟩

theorem reflTransGen_symm {a b : GridPos} (h : ReflTransGen (JoinedBy plan) a b) :
    ReflTransGen (JoinedBy plan) b a := by
  induction h with
  | refl => exact .refl
  | tail _ hjoined ih => exact .head hjoined.symm ih

theorem ends_mem_segmentCells (p q : GridPos) : p ∈ segmentCells p q ∧ q ∈ segmentCells p q := by
  unfold segmentCells
  split
  · rename_i hlayer
    exact ⟨mem_lineCells_start p q, mem_lineCells_end hlayer⟩
  · exact ⟨mem_cons_self, mem_cons_of_mem _ mem_cons_self⟩

theorem reflTransGen_of_path {path : List GridPos}
    (hsegs : ∀ seg ∈ segments path, ∃ path' ∈ plan.edge_paths, seg ∈ segments path') {a b : GridPos}
    (hhead : path.head? = some a) (hlast : path.getLast? = some b) : ReflTransGen (JoinedBy plan) a b := by
  fun_induction segments path generalizing a with
  | case1 p q rest ih =>
    obtain rfl : p = a := some.inj hhead
    have hrest := ih (fun seg hseg => hsegs seg (mem_cons_of_mem _ hseg)) rfl
      (by rw [← hlast, getLast?_cons_cons])
    obtain ⟨path', hpath', hseg⟩ := hsegs (p, q) mem_cons_self
    obtain ⟨hp, hq⟩ := ends_mem_segmentCells p q
    exact .head ⟨path', hpath', (p, q), hseg, hp, hq⟩ hrest
  | case2 path hshort =>
    -- a path of fewer than two cells with a first cell is that cell alone
    cases path with
    | nil => simp at hhead
    | cons p rest =>
      obtain rfl : p = a := by simpa using hhead
      cases rest with
      | nil =>
        obtain rfl : p = b := by simpa using hlast
        exact .refl
      | cons q rest => exact absurd rfl (hshort p q rest)

theorem connects_of_edges {layer : ℤ} {grid_positions : List (ℤ × ℤ)}
    (hedges : ∀ e ∈ mst grid_positions, ∃ p q, grid_positions[e.1]? = some p ∧ grid_positions[e.2]? = some q ∧ ReflTransGen (JoinedBy plan) ⟨p.1, p.2, layer⟩ ⟨q.1, q.2, layer⟩) :
    Connects plan layer grid_positions := by
  intro g hg g' hg'
  obtain ⟨i, hi, rfl⟩ := mem_iff_getElem.mp hg
  obtain ⟨j, hj, rfl⟩ := mem_iff_getElem.mp hg'
  by_contra hnot
  have hapart : ¬ ∃ p, grid_positions[j]? = some p ∧ ReflTransGen (JoinedBy plan)
      ⟨grid_positions[i].1, grid_positions[i].2, layer⟩ ⟨p.1, p.2, layer⟩ := by
    rintro ⟨p, hp, hreach⟩
    obtain rfl := some.inj ((getElem?_eq_getElem hj).symm.trans hp)
    exact hnot hreach
  -- the edges cross the division into what is connected with the first position and what is not
  obtain ⟨e, he, hcross⟩ := mst_crosses (S := fun k => ∃ p, grid_positions[k]? = some p ∧
      ReflTransGen (JoinedBy plan) ⟨grid_positions[i].1, grid_positions[i].2, layer⟩ ⟨p.1, p.2, layer⟩)
    hi ⟨_, getElem?_eq_getElem hi, .refl⟩ hj hapart
  obtain ⟨p, q, hp, hq, hpq⟩ := hedges e he
  rcases hcross with ⟨⟨p', hp', hreach⟩, hnone⟩ | ⟨⟨q', hq', hreach⟩, hnone⟩
  · obtain rfl : p = p' := some.inj (hp.symm.trans hp')
    exact hnone ⟨q, hq, hreach.trans hpq⟩
  · obtain rfl : q = q' := some.inj (hq.symm.trans hq')
    exact hnone ⟨p, hp, hreach.trans (reflTransGen_symm hpq)⟩

theorem mem_occupiedCells_of_connects {layer : ℤ} {grid_positions : List (ℤ × ℤ)}
    (h : Connects plan layer grid_positions) {g g' : ℤ × ℤ} (hg : g ∈ grid_positions) (hg' : g' ∈ grid_positions)
    (hne : g' ≠ g) : (⟨g.1, g.2, layer⟩ : GridPos) ∈ occupiedCells plan := by
  have hpos : (⟨g'.1, g'.2, layer⟩ : GridPos) ≠ ⟨g.1, g.2, layer⟩ := by
    intro heq
    rw [GridPos.mk.injEq] at heq
    exact hne (Prod.ext heq.1 heq.2.1)
  rcases ReflTransGen.cases_head (h g hg g' hg') with heq | ⟨c, ⟨path, hpath, seg, hseg, hmem, -⟩, -⟩
  · exact absurd heq.symm hpos
  · exact mem_flatMap.mpr ⟨path, hpath, mem_flatMap.mpr ⟨seg, hseg, hmem⟩⟩

/-! ## Free cells -/

/-- The cell is opened for the net when it is probed: it is not on the edge of the board, and nothing of
another net is on it. -/
def Openable (obs : ObstacleMap) (net_id : String) (p : GridPos) : Prop :=
  ((0 < p.x ∧ p.x < obs.width - 1) ∧ 0 < p.y ∧ p.y < obs.height - 1) ∧ obs.mayOpen p net_id = true

/-- The cell is free for the net, or opened when it is probed. -/
def Usable (obs : ObstacleMap) (net_id : String) (p : GridPos) : Prop :=
  obs.isFree p (some net_id) = true ∨ Openable obs net_id p

section Free

variable {net_id : String} {obs obs' : ObstacleMap}

theorem isFree_openForNet {pos : GridPos} (h : obs.mayOpen pos net_id) (p : GridPos) :
    (obs.openForNet pos net_id).isFree p (some net_id) = true ↔
      obs.isFree p (some net_id) = true ∨ p = pos := by
  rw [openForNet_of_mayOpen h]
  by_cases hp : p = pos
  · subst hp
    simp only [mayOpen, Bool.and_eq_true, Bool.not_eq_true'] at h
    obtain ⟨⟨⟨hin, hconflict⟩, hpads⟩, -⟩ := h
    simp only [or_true, iff_true, isFree, if_true, hconflict, decide_true, isSome_some,
      Bool.true_and, Bool.not_false, Bool.and_true, Bool.and_eq_true]
    exact ⟨hin, hpads⟩
  · simp only [isFree, hp, if_false, or_false]
    rfl

theorem mayOpen_openForNet {pos : GridPos} (h : obs.mayOpen pos net_id) (p : GridPos) :
    (obs.openForNet pos net_id).mayOpen p net_id = obs.mayOpen p net_id := by
  rw [openForNet_of_mayOpen h]
  by_cases hp : p = pos
  · subst hp
    rw [h]
    simp only [mayOpen, Bool.and_eq_true, Bool.not_eq_true'] at h
    obtain ⟨⟨⟨hin, hconflict⟩, hpads⟩, -⟩ := h
    simp only [mayOpen, ObstacleMap.owner, if_true, hconflict, decide_true, Bool.not_false, Bool.and_true,
      Bool.and_eq_true]
    exact ⟨hin, hpads⟩
  · simp only [mayOpen, ObstacleMap.owner, hp, if_false]
    rfl

theorem openable_probeEndpoint (probe p : GridPos) :
    Openable (probeEndpoint net_id obs probe) net_id p ↔ Openable obs net_id p := by
  have hgrows := grows_probeEndpoint net_id obs probe
  unfold Openable
  rw [hgrows.width, hgrows.height]
  refine and_congr_right fun _ => ?_
  unfold probeEndpoint
  split
  · by_cases h : obs.mayOpen probe net_id
    · rw [mayOpen_openForNet h]
    · rw [openForNet_of_not_mayOpen h]
  · rfl

theorem isFree_probeEndpoint (probe p : GridPos) :
    (probeEndpoint net_id obs probe).isFree p (some net_id) = true ↔
      obs.isFree p (some net_id) = true ∨ (p = probe ∧ Openable obs net_id p) := by
  unfold probeEndpoint
  split
  · rename_i hinner
    by_cases h : obs.mayOpen probe net_id
    · rw [isFree_openForNet h]
      refine or_congr_right ⟨?_, And.left⟩
      rintro rfl
      exact ⟨rfl, hinner, h⟩
    · rw [openForNet_of_not_mayOpen h]
      refine ⟨.inl, ?_⟩
      rintro (hfree | ⟨rfl, -, hopen⟩)
      · exact hfree
      · exact absurd hopen h
  · rename_i hinner
    refine ⟨.inl, ?_⟩
    rintro (hfree | ⟨rfl, hopen, -⟩)
    · exact hfree
    · exact absurd hopen hinner

theorem isFree_probes (probes : List GridPos) (p : GridPos) :
    (probes.foldl (probeEndpoint net_id) obs).isFree p (some net_id) = true ↔
      obs.isFree p (some net_id) = true ∨ (p ∈ probes ∧ Openable obs net_id p) := by
  induction probes generalizing obs with
  | nil => simp
  | cons probe probes ih =>
    rw [foldl_cons, ih, isFree_probeEndpoint, openable_probeEndpoint, mem_cons]
    tauto

/-- **What is free** once the cells around the grid positions are opened. -/
theorem isFree_unblockEndpoints (layer radius : ℤ) (grid_positions : List (ℤ × ℤ)) (p : GridPos) :
    (unblockEndpoints net_id layer radius grid_positions obs).isFree p (some net_id) = true ↔
      obs.isFree p (some net_id) = true ∨
        ((∃ g ∈ grid_positions, p ∈ window ⟨g.1, g.2, layer⟩ radius) ∧ Openable obs net_id p) := by
  have hprobes : unblockEndpoints net_id layer radius grid_positions obs =
      (grid_positions.flatMap fun g => window ⟨g.1, g.2, layer⟩ radius).foldl (probeEndpoint net_id) obs := by
    rw [foldl_flatMap]
    rfl
  rw [hprobes, isFree_probes, mem_flatMap]

theorem isFree_blockLine {p0 p1 : GridPos} {radius : ℤ}
    (h : obs.blockLine p0 p1 radius (some net_id) = Except.ok obs') (p : GridPos) :
    obs'.isFree p (some net_id) = obs.isFree p (some net_id) := by
  obtain ⟨hfree, rfl⟩ := blockLine_ok_iff.mp h
  by_cases hp : p ∈ obs.reservations p0 p1 radius
  · have hown := hfree p hp
    simp only [isFree, hp, if_true, decide_true, Bool.and_true]
    cases hcopper : obs.copper p with
    | none =>
      simp only [Bool.and_true]
      rfl
    | some owner =>
      rw [not_isReserved_owner hown hcopper]
      simp only [decide_true, Bool.and_true]
      rfl
  · simp only [isFree, hp, if_false]
    rfl

theorem isFree_reservePath {clear_cells : ℤ} {segs : List (GridPos × GridPos)}
    (h : reservePath net_id clear_cells segs obs = Except.ok obs') (p : GridPos) :
    obs'.isFree p (some net_id) = obs.isFree p (some net_id) := by
  induction segs generalizing obs with
  | nil =>
    cases h
    rfl
  | cons seg segs ih =>
    obtain ⟨first, second⟩ := seg
    unfold reservePath at h
    split at h
    · cases h
    · rename_i mid hline
      rw [ih h, isFree_blockLine hline]

end Free

/-! ## A routed net -/

section Net

variable {κ : Type} [Zero κ] [One κ] [Add κ] [Sub κ] [Mul κ] [IntCast κ] [LT κ] [DecidableLT κ]
variable {router : GridRouter κ} {kb : KnowledgeBase} {pins : PinGeometry} {design : RoutedDesign}
  {grid_positions : List (ℤ × ℤ)} {layer clear_cells : ℤ} {net_id : String} {obs obs' : ObstacleMap}

/-- The edge is routed on a map on which the same cells are free. -/
def EdgeRouted (router : GridRouter κ) (net_id : String) (obs : ObstacleMap) (start goal : GridPos)
    (path : List GridPos) : Prop :=
  ∃ mid raw clear_cells, Grows net_id obs mid ∧
    (∀ c, mid.isFree c (some net_id) = obs.isFree c (some net_id)) ∧
    router.astar mid start goal (some net_id) clear_cells = some raw ∧ path = simplifyPath raw

/-- Each edge has its path, and each path its edge. -/
theorem edgeRouted_of_routeMstPaths {edges : List (ℕ × ℕ)} {paths : List (List GridPos)}
    (h : router.routeMstPaths grid_positions layer clear_cells net_id edges obs = some (paths, obs')) :
    (∀ e ∈ edges, ∃ p q, grid_positions[e.1]? = some p ∧ grid_positions[e.2]? = some q ∧
      ∃ path ∈ paths, EdgeRouted router net_id obs ⟨p.1, p.2, layer⟩ ⟨q.1, q.2, layer⟩ path) ∧
    ∀ path ∈ paths, ∃ start goal, EdgeRouted router net_id obs start goal path := by
  induction edges generalizing obs paths with
  | nil =>
    cases h
    exact ⟨fun e he => absurd he not_mem_nil, fun path hpath => absurd hpath not_mem_nil⟩
  | cons edge edges ih =>
    obtain ⟨first, second⟩ := edge
    obtain ⟨p, q, raw, mid, rest, hp, hq, hraw, hres, hrest, rfl⟩ := routeMstPaths_cons h
    obtain ⟨hedges, hpaths⟩ := ih hrest
    -- what is routed on the map of the later edges is routed on the map of all
    have hlater : ∀ start goal path, EdgeRouted router net_id mid start goal path →
        EdgeRouted router net_id obs start goal path := by
      rintro start goal path ⟨mid', raw', clear_cells', hgrows, hfree, hraw', rfl⟩
      exact ⟨mid', raw', clear_cells', (grows_reservePath hres).trans hgrows,
        fun c => (hfree c).trans (isFree_reservePath hres c), hraw', rfl⟩
    have hthis : EdgeRouted router net_id obs ⟨p.1, p.2, layer⟩ ⟨q.1, q.2, layer⟩ (simplifyPath raw) :=
      ⟨obs, raw, _, Grows.refl net_id obs, fun _ => rfl, hraw, rfl⟩
    constructor
    · intro e he
      rcases mem_cons.mp he with rfl | he
      · exact ⟨p, q, hp, hq, _, mem_cons_self, hthis⟩
      · obtain ⟨p', q', hp', hq', path, hpath, hrouted⟩ := hedges e he
        exact ⟨p', q', hp', hq', path, mem_cons_of_mem _ hpath, hlater _ _ _ hrouted⟩
    · intro path hpath
      rcases mem_cons.mp hpath with rfl | hpath
      · exact ⟨_, _, hthis⟩
      · obtain ⟨start, goal, hrouted⟩ := hpaths path hpath
        exact ⟨start, goal, hlater _ _ _ hrouted⟩

namespace EdgeRouted

variable {start goal : GridPos} {path : List GridPos}

theorem isFree_of_mem (h : EdgeRouted router net_id obs start goal path) :
    ∀ c ∈ pathCells path, obs.isFree c (some net_id) = true := by
  obtain ⟨mid, raw, clear_cells, -, hfree, hraw, rfl⟩ := h
  intro c hc
  obtain ⟨-, -, -, -, hchain, -, -⟩ := astar_sound hraw
  rw [← hfree]
  exact isFree_of_astar hraw c (mem_of_mem_pathCells_simplifyPath (hchain.imp fun _ _ h => h.adjacent) hc)

theorem ends_of_isFree (h : EdgeRouted router net_id obs start goal path)
    (hstart : obs.isFree start (some net_id) = true) (hgoal : obs.isFree goal (some net_id) = true) :
    path.head? = some start ∧ path.getLast? = some goal := by
  obtain ⟨mid, raw, clear_cells, -, hfree, hraw, rfl⟩ := h
  obtain ⟨s, g, hs, hg, -, hhead, hlast⟩ := astar_sound hraw
  rw [resolveAstarEndpoint, if_pos ((hfree start).trans hstart), some.injEq] at hs
  rw [resolveAstarEndpoint, if_pos ((hfree goal).trans hgoal), some.injEq] at hg
  rw [head?_simplifyPath, getLast?_simplifyPath, hs, hg]
  exact ⟨hhead, hlast⟩

theorem isFree_of_pad_aware (h : EdgeRouted router net_id obs start goal path)
    (hpad : router.pad_aware = true) :
    obs.isFree start (some net_id) = true ∧ obs.isFree goal (some net_id) = true := by
  obtain ⟨mid, raw, clear_cells, -, hfree, hraw, -⟩ := h
  unfold GridRouter.astar at hraw
  split at hraw
  · cases hraw
  · rename_i hends
    rw [← hfree, ← hfree]
    by_contra hnot
    exact hends ⟨hpad, not_and_or.mp hnot⟩

theorem isFree_of_ready (h : EdgeRouted router net_id obs start goal path) (hplain : obs.Plain)
    (hinner : ∀ c, obs.Inner c → obs.Inner start ∧ obs.Inner goal)
    (hclaimed : ∀ p, p = start ∨ p = goal → obs.Inner p → Claimed net_id obs p) :
    obs.isFree start (some net_id) = true ∧ obs.isFree goal (some net_id) = true := by
  obtain ⟨mid, raw, clear_cells, hgrows, hfree, hraw, -⟩ := h
  obtain ⟨s, g, hs, hg, -⟩ := astar_sound hraw
  have hfrees := isFree_of_resolve hs
  have hfreeg := isFree_of_resolve hg
  have hplain' := hgrows.plain hplain
  obtain ⟨hstart, hgoal⟩ := hinner s (hgrows.inner_iff.mp (hplain'.inner_of_isFree hfrees))
  obtain ⟨rfl, -⟩ := resolve_of_claimed hplain' (hgrows.inner_iff.mpr hstart)
    ((hclaimed start (.inl rfl) hstart).grows hgrows) hs
  obtain ⟨rfl, -⟩ := resolve_of_claimed hplain' (hgrows.inner_iff.mpr hgoal)
    ((hclaimed goal (.inr rfl) hgoal).grows hgrows) hg
  rw [← hfree, ← hfree]
  exact ⟨hfrees, hfreeg⟩

end EdgeRouted

/-! ### The plan -/

def planningLayer (router : GridRouter κ) (pins : PinGeometry) (design : RoutedDesign) (net : Net)
    (context : GridRouteContext) : Option ℤ :=
  planLayer router pins net (layerForNetClass (getNetClass design net.id) context.num_layers)
    (collectNetRoutePoints router pins net context) (gridPositions router pins net context) context

variable {context : GridRouteContext} {net : Net}

theorem exists_edge_paths_of_success (h : (planGridNet router kb pins design net context).1.success = true) :
    0 ≤ layerForNetClass (getNetClass design net.id) context.num_layers ∧
    ∃ layer obs', planningLayer router pins design net context = some layer ∧
      router.routeMstPaths (gridPositions router pins net context) layer
        (clearCells router kb design net.id) net.id (mst (gridPositions router pins net context))
        (stagedMap router kb pins design net context layer) =
          some ((planGridNet router kb pins design net context).1.edge_paths, obs') := by
  obtain ⟨hlayer, layer, paths, obs', hplan, hpaths, heq⟩ := exists_routeMstPaths h
  rw [heq]
  exact ⟨hlayer, layer, obs', hplan, hpaths⟩

omit [Zero κ] [One κ] [Add κ] [Sub κ] [Mul κ] [IntCast κ] [LT κ] [DecidableLT κ] in
theorem clearCells_pos (router : GridRouter κ) (kb : KnowledgeBase) (design : RoutedDesign)
    (net_id : String) : 0 < clearCells router kb design net_id :=
  lt_of_lt_of_le (by decide) (le_max_right _ 1)

omit [Zero κ] [One κ] [Add κ] [Sub κ] [Mul κ] [IntCast κ] [LT κ] [DecidableLT κ] in
theorem isFree_stagedMap_iff (hpad : router.pad_aware = false) {g : ℤ × ℤ}
    (hg : g ∈ gridPositions router pins net context) :
    (stagedMap router kb pins design net context layer).isFree ⟨g.1, g.2, layer⟩ (some net.id) = true ↔
      Usable context.obstacles net.id ⟨g.1, g.2, layer⟩ := by
  have hwindow : ∃ g' ∈ gridPositions router pins net context, (⟨g.1, g.2, layer⟩ : GridPos) ∈
      window ⟨g'.1, g'.2, layer⟩ (clearCells router kb design net.id) := by
    refine ⟨g, hg, mem_window.mpr ⟨rfl, ?_⟩⟩
    have hpos := clearCells_pos router kb design net.id
    simpa [chebyshev] using hpos.le
  rw [stagedMap, hpad, if_neg (by decide), isFree_unblockEndpoints, Usable]
  exact or_congr_right (and_iff_right hwindow)

variable {plan : GridNetPlan}

theorem connects_of_isFree
    (hpaths : router.routeMstPaths grid_positions layer clear_cells net_id (mst grid_positions) obs = some (plan.edge_paths, obs'))
    (hfree : ∀ p q path, p ∈ grid_positions → q ∈ grid_positions → EdgeRouted router net_id obs ⟨p.1, p.2, layer⟩ ⟨q.1, q.2, layer⟩ path → obs.isFree ⟨p.1, p.2, layer⟩ (some net_id) = true ∧ obs.isFree ⟨q.1, q.2, layer⟩ (some net_id) = true) :
    Connects plan layer grid_positions := by
  apply connects_of_edges
  intro e he
  obtain ⟨p, q, hp, hq, path, hpath, hrouted⟩ := (edgeRouted_of_routeMstPaths hpaths).1 e he
  obtain ⟨hfreep, hfreeq⟩ := hfree p q path (mem_of_getElem? hp) (mem_of_getElem? hq) hrouted
  obtain ⟨hhead, hlast⟩ := hrouted.ends_of_isFree hfreep hfreeq
  exact ⟨p, q, hp, hq, reflTransGen_of_path (fun seg hseg => ⟨path, hpath, hseg⟩) hhead hlast⟩

theorem connects_of_pad_aware (hpad : router.pad_aware = true)
    (hpaths : router.routeMstPaths grid_positions layer clear_cells net_id (mst grid_positions) obs = some (plan.edge_paths, obs')) :
    Connects plan layer grid_positions :=
  connects_of_isFree hpaths fun _ _ _ _ _ hrouted => hrouted.isFree_of_pad_aware hpad

/-- **On a map without pads** whose edge is blocked a routed net connects its grid positions. -/
theorem connects_of_contextOk (hok : ContextOk context) {layer : ℤ} {obs' : ObstacleMap}
    (hlayer : planningLayer router pins design net context = some layer)
    (hlayer₀ : 0 ≤ layerForNetClass (getNetClass design net.id) context.num_layers)
    (hpaths : router.routeMstPaths (gridPositions router pins net context) layer (clearCells router kb design net.id) net.id (mst (gridPositions router pins net context)) (stagedMap router kb pins design net context layer) = some (plan.edge_paths, obs')) :
    Connects plan layer (gridPositions router pins net context) := by
  cases hpad : router.pad_aware with
  | true => exact connects_of_pad_aware hpad hpaths
  | false =>
    refine connects_of_isFree hpaths fun p q path hp hq hrouted => ?_
    have hlt := layerForNetClass_lt (getNetClass design net.id) hok.layers_pos
    have heq : layerForNetClass (getNetClass design net.id) context.num_layers = layer := by
      simpa [planningLayer, planLayer, hpad] using hlayer
    rw [heq] at hlayer₀ hlt
    have hpos := clearCells_pos router kb design net.id
    have hstaged : stagedMap router kb pins design net context layer =
        unblockEndpoints net.id layer (clearCells router kb design net.id)
          (gridPositions router pins net context) context.obstacles := by
      rw [stagedMap, hpad, if_neg (by decide)]
    rw [hstaged] at hrouted ⊢
    have hopened := grows_unblockEndpoints net.id context.obstacles layer
      (clearCells router kb design net.id) (gridPositions router pins net context)
    refine hrouted.isFree_of_ready (hopened.plain hok.plain) ?_ ?_
    · intro c hc
      have hc' := hopened.inner_iff.mp hc
      exact ⟨hopened.inner_iff.mpr (inner_of_gridPosition hok hp ⟨hlayer₀, hlt⟩ hc'),
        hopened.inner_iff.mpr (inner_of_gridPosition hok hq ⟨hlayer₀, hlt⟩ hc')⟩
    · intro c hc hinner
      have hwindow : ∀ g ∈ gridPositions router pins net context,
          Claimed net.id (unblockEndpoints net.id layer (clearCells router kb design net.id)
            (gridPositions router pins net context) context.obstacles) ⟨g.1, g.2, layer⟩ ∨
          ¬ context.obstacles.Inner ⟨g.1, g.2, layer⟩ := by
        intro g hg
        by_cases hg' : context.obstacles.Inner ⟨g.1, g.2, layer⟩
        · exact .inl (claimed_unblockEndpoints hok.plain hg
            (mem_window.mpr ⟨rfl, by simpa [chebyshev] using hpos.le⟩) hg')
        · exact .inr hg'
      have hinner' := hopened.inner_iff.mp hinner
      rcases hc with rfl | rfl
      · exact (hwindow p hp).resolve_right (not_not.mpr hinner')
      · exact (hwindow q hq).resolve_right (not_not.mpr hinner')

theorem usable_of_connects (hpad : router.pad_aware = false) {layer : ℤ} {obs' : ObstacleMap}
    (hpaths : router.routeMstPaths (gridPositions router pins net context) layer (clearCells router kb design net.id) net.id (mst (gridPositions router pins net context)) (stagedMap router kb pins design net context layer) = some (plan.edge_paths, obs'))
    (h : Connects plan layer (gridPositions router pins net context)) {g g' : ℤ × ℤ}
    (hg : g ∈ gridPositions router pins net context) (hg' : g' ∈ gridPositions router pins net context) (hne : g' ≠ g) :
    Usable context.obstacles net.id ⟨g.1, g.2, layer⟩ := by
  obtain ⟨path, hpath, hcell⟩ := mem_flatMap.mp (mem_occupiedCells_of_connects h hg hg' hne)
  obtain ⟨start, goal, hrouted⟩ := (edgeRouted_of_routeMstPaths hpaths).2 path hpath
  exact (isFree_stagedMap_iff hpad hg).mp (hrouted.isFree_of_mem _ hcell)

/-- **When a routed net connects its grid positions**: exactly when they all coincide, the map has pad
copper that the router knows, or each of them is free or can be opened. On the maps that the router
prepares this is always so. -/
theorem connects_iff_usable {net : Net} {context : GridRouteContext}
    (h : (planGridNet router kb pins design net context).1.success = true) :
    ∃ layer, planningLayer router pins design net context = some layer ∧
      (Connects (planGridNet router kb pins design net context).1 layer
          (gridPositions router pins net context) ↔
        (∀ g ∈ gridPositions router pins net context, ∀ g' ∈ gridPositions router pins net context,
          g = g') ∨ router.pad_aware = true ∨
        ∀ g ∈ gridPositions router pins net context,
          Usable context.obstacles net.id ⟨g.1, g.2, layer⟩) ∧
      (ContextOk context → Connects (planGridNet router kb pins design net context).1 layer
        (gridPositions router pins net context)) := by
  obtain ⟨hlayer₀, layer, obs', hlayer, hpaths⟩ := exists_edge_paths_of_success h
  refine ⟨layer, hlayer, ⟨?_, ?_⟩, fun hok => connects_of_contextOk hok hlayer hlayer₀ hpaths⟩
  · intro hconnects
    cases hpad : router.pad_aware with
    | true => exact .inr (.inl rfl)
    | false =>
      by_cases hall : ∀ g ∈ gridPositions router pins net context,
          ∀ g' ∈ gridPositions router pins net context, g = g'
      · exact .inl hall
      · simp only [not_forall] at hall
        obtain ⟨a, ha, b, hb, hab⟩ := hall
        refine .inr (.inr fun g hg => ?_)
        by_cases hga : g = a
        · exact usable_of_connects hpad hpaths hconnects hg hb (hga ▸ Ne.symm hab)
        · exact usable_of_connects hpad hpaths hconnects hg ha (Ne.symm hga)
  · rintro (hall | hpad | husable)
    · intro g hg g' hg'
      rw [hall g hg g' hg']
    · exact connects_of_pad_aware hpad hpaths
    · cases hpad : router.pad_aware with
      | true => exact connects_of_pad_aware hpad hpaths
      | false =>
        refine connects_of_isFree hpaths fun p q path hp hq _ => ?_
        exact ⟨(isFree_stagedMap_iff hpad hp).mpr (husable p hp),
          (isFree_stagedMap_iff hpad hq).mpr (husable q hq)⟩

end Net

/-! ### A pad at an end -/

/-- The board with the pad of another net at the first end of the differential net, which a router that
does not know of pads takes no notice of. -/
def padContext : GridRouteContext :=
  { prepareRouteContext defaultRouter viaDesign (viaPlacement 7) with
    obstacles := (prepareRouteContext defaultRouter viaDesign (viaPlacement 7)).obstacles.markPad
      ⟨5, 1, 1⟩ (some "GND") }

/-- The search starts at a free cell nearby, and nothing leads to the end. -/
theorem not_connects_padContext :
    (planGridNet defaultRouter viaRules pointGeometry viaDesign (pointNet "USB_D" "J1" "J2")
        padContext).1.success = true ∧
      planningLayer defaultRouter pointGeometry viaDesign (pointNet "USB_D" "J1" "J2") padContext =
        some 1 ∧
      ¬ Connects (planGridNet defaultRouter viaRules pointGeometry viaDesign (pointNet "USB_D" "J1" "J2")
        padContext).1 1 (gridPositions defaultRouter pointGeometry (pointNet "USB_D" "J1" "J2")
          padContext) := by
  refine ⟨by decide +kernel, by decide +kernel, fun hconnects => ?_⟩
  have hends : gridPositions defaultRouter pointGeometry (pointNet "USB_D" "J1" "J2") padContext =
      [(5, 1), (5, 2)] := by decide +kernel
  rw [hends] at hconnects
  have hmem := mem_occupiedCells_of_connects hconnects mem_cons_self
    (mem_cons_of_mem _ mem_cons_self) (by decide)
  revert hmem
  decide +kernel

/-- On the board without the pad the net is connected. -/
theorem connects_viaDesign :
    (planGridNet defaultRouter viaRules pointGeometry viaDesign (pointNet "USB_D" "J1" "J2")
        (prepareRouteContext defaultRouter viaDesign (viaPlacement 7))).1.success = true ∧
      ∃ layer, Connects (planGridNet defaultRouter viaRules pointGeometry viaDesign
        (pointNet "USB_D" "J1" "J2") (prepareRouteContext defaultRouter viaDesign (viaPlacement 7))).1 layer
        (gridPositions defaultRouter pointGeometry (pointNet "USB_D" "J1" "J2")
          (prepareRouteContext defaultRouter viaDesign (viaPlacement 7))) := by
  have hsuccess : (planGridNet defaultRouter viaRules pointGeometry viaDesign (pointNet "USB_D" "J1" "J2")
      (prepareRouteContext defaultRouter viaDesign (viaPlacement 7))).1.success = true := by
    decide +kernel
  obtain ⟨layer, -, -, hok⟩ := connects_iff_usable hsuccess
  exact ⟨hsuccess, layer, hok (contextOk_prepareRouteContext defaultRouter viaDesign (viaPlacement 7)).1⟩

end ZapTrace
