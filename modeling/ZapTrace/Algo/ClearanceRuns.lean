import ZapTrace.Algo.GridClearance

/-!
# Clearance between routed nets

Two routed nets keep their clearance when no cell of the one is within the clearance of either net from
a cell of the other on the same layer. A net keeps the clearance of the nets before it, since the cells
around their paths are taken. It keeps its own clearance where its path is reserved, since the
reservation is refused otherwise; only where a path ends with a layer change nothing has compared the
cells around its end with the nets before. So the clearance is kept exactly when the ends of each
routed net are far enough from the nets before it that have a smaller clearance.

## Main results

* `runInv_routeOrderedNets`: the invariant holds in every run
* `clearanceKept_iff`: when the clearance is kept
-/

namespace ZapTrace

open ObstacleMap GridRouter List

/-! ## The map at the start -/

/-- More cells are blocked; nothing else has changed. -/
structure Blocks (obs obs' : ObstacleMap) : Prop where
  width : obs'.width = obs.width
  height : obs'.height = obs.height
  layers : obs'.layers = obs.layers
  pads : obs'.pads = obs.pads
  pad_conflicts : obs'.pad_conflicts = obs.pad_conflicts
  static : obs'.enforce_static_clearance = obs.enforce_static_clearance
  copper : obs'.copper = obs.copper
  cells : ∀ p, obs.cells p = true → obs'.cells p = true

theorem Blocks.refl (obs : ObstacleMap) : Blocks obs obs :=
  ⟨rfl, rfl, rfl, rfl, rfl, rfl, rfl, fun _ h => h⟩

theorem Blocks.trans {obs obs' obs'' : ObstacleMap} (h : Blocks obs obs') (h' : Blocks obs' obs'') :
    Blocks obs obs'' :=
  ⟨h'.width.trans h.width, h'.height.trans h.height, h'.layers.trans h.layers, h'.pads.trans h.pads,
    h'.pad_conflicts.trans h.pad_conflicts, h'.static.trans h.static, h'.copper.trans h.copper,
    fun p hp => h'.cells p (h.cells p hp)⟩

theorem blocks_blockRect (obs : ObstacleMap) (x0 y0 x1 y1 layer : ℤ) :
    Blocks obs (obs.blockRect x0 y0 x1 y1 layer) := by
  refine ⟨rfl, rfl, rfl, rfl, rfl, rfl, rfl, ?_⟩
  intro p hp
  simp only [blockRect]
  split
  · rfl
  · exact hp

theorem blocks_foldl {α : Type} {f : ObstacleMap → α → ObstacleMap} {l : List α} {obs : ObstacleMap}
    (hf : ∀ obs a, Blocks obs (f obs a)) : Blocks obs (l.foldl f obs) :=
  foldlRecOn (motive := Blocks obs) l f (Blocks.refl obs) fun _ h a _ => h.trans (hf _ a)

def blockLayerEdges (gw gh : ℤ) (obs : ObstacleMap) (lyr : ℤ) : ObstacleMap :=
  (((obs.blockRect 0 0 (gw - 1) 0 lyr).blockRect 0 (gh - 1) (gw - 1) (gh - 1) lyr).blockRect
    0 0 0 (gh - 1) lyr).blockRect (gw - 1) 0 (gw - 1) (gh - 1) lyr

theorem blockBoardEdges_eq (obs : ObstacleMap) (gw gh n_layers : ℤ) :
    blockBoardEdges obs gw gh n_layers = (intRange 0 n_layers).foldl (blockLayerEdges gw gh) obs := rfl

theorem blocks_blockLayerEdges (gw gh : ℤ) (obs : ObstacleMap) (lyr : ℤ) :
    Blocks obs (blockLayerEdges gw gh obs lyr) :=
  (((blocks_blockRect obs 0 0 (gw - 1) 0 lyr).trans (blocks_blockRect _ 0 (gh - 1) (gw - 1) (gh - 1) lyr)).trans
    (blocks_blockRect _ 0 0 0 (gh - 1) lyr)).trans (blocks_blockRect _ (gw - 1) 0 (gw - 1) (gh - 1) lyr)

theorem cells_blockLayerEdges {obs : ObstacleMap} {p : GridPos} (hin : obs.inBounds p)
    (hinner : ¬ obs.Inner p) :
    (blockLayerEdges obs.width obs.height obs p.layer).cells p = true := by
  rw [inBounds_iff] at hin
  simp only [ObstacleMap.Inner, hin.1, true_and, and_true] at hinner
  simp only [blockLayerEdges, blockRect, true_and]
  split
  · rfl
  · rename_i h4
    split
    · rfl
    · rename_i h3
      split
      · rfl
      · rename_i h2
        rw [if_pos]
        omega

theorem Blocks.plain {obs obs' : ObstacleMap} (h : Blocks obs obs') (hplain : obs.Plain) :
    obs'.Plain where
  pads := fun p => by rw [h.pads, hplain.pads]
  pad_conflicts := fun p => by rw [h.pad_conflicts, hplain.pad_conflicts]
  static := h.static.trans hplain.static
  border := fun p hin hinner => by
    rw [inBounds_iff, h.width, h.height, h.layers, ← inBounds_iff] at hin
    rw [ObstacleMap.Inner, h.width, h.height, h.layers] at hinner
    exact h.cells p (hplain.border p hin hinner)

theorem blockBoardEdges_empty (gw gh n_layers : ℤ) :
    Blocks (ObstacleMap.empty gw gh n_layers)
        (blockBoardEdges (ObstacleMap.empty gw gh n_layers) gw gh n_layers) ∧
      (blockBoardEdges (ObstacleMap.empty gw gh n_layers) gw gh n_layers).Plain := by
  have hblocks : Blocks (ObstacleMap.empty gw gh n_layers)
      (blockBoardEdges (ObstacleMap.empty gw gh n_layers) gw gh n_layers) := by
    rw [blockBoardEdges_eq]
    exact blocks_foldl (blocks_blockLayerEdges gw gh)
  refine ⟨hblocks, ?_, ?_, hblocks.static, ?_⟩
  · exact fun p => congrFun hblocks.pads p
  · exact fun p => congrFun hblocks.pad_conflicts p
  · intro p hin hinner
    rw [inBounds_iff, hblocks.width, hblocks.height, hblocks.layers, ← inBounds_iff] at hin
    rw [ObstacleMap.Inner, hblocks.width, hblocks.height, hblocks.layers] at hinner
    rw [blockBoardEdges_eq]
    -- the rectangles of the layer of the cell block it
    refine foldl_establishes (I := fun obs => Blocks (ObstacleMap.empty gw gh n_layers) obs)
      (P := fun obs : ObstacleMap => obs.cells p = true)
      (mem_intRange.mpr (inBounds_iff.mp hin).1) (Blocks.refl _)
      (fun obs lyr h => h.trans (blocks_blockLayerEdges gw gh obs lyr))
      (fun obs lyr h => (blocks_blockLayerEdges gw gh obs lyr).cells p h) ?_
    intro obs h
    have hw : obs.width = gw := h.width
    have hh : obs.height = gh := h.height
    rw [← hw, ← hh]
    refine cells_blockLayerEdges ?_ ?_
    · rw [inBounds_iff, h.width, h.height, h.layers, ← inBounds_iff]
      exact hin
    · rw [ObstacleMap.Inner, h.width, h.height, h.layers]
      exact hinner

section Run

variable {κ : Type} [Zero κ] [One κ] [Add κ] [Sub κ] [Mul κ] [IntCast κ] [LT κ] [DecidableLT κ]
variable {router : GridRouter κ} {kb : KnowledgeBase} {pins : PinGeometry} {design : RoutedDesign}
  {positions : Dict String (ℚ × ℚ)}

omit [Zero κ] [One κ] [Add κ] [Sub κ] [Mul κ] [IntCast κ] [LT κ] [DecidableLT κ] in
theorem blocks_blockComponents (router : GridRouter κ) (design : RoutedDesign)
    (positions : Dict String (ℚ × ℚ)) (obs : ObstacleMap) :
    Blocks obs (blockComponents router design positions obs) := by
  unfold blockComponents
  refine blocks_foldl fun obs comp => ?_
  split
  · split
    · exact Blocks.refl obs
    · exact blocks_foldl fun obs layer => blocks_blockRect obs _ _ _ _ layer
  · exact Blocks.refl obs

omit [Zero κ] [One κ] [Add κ] [Sub κ] [Mul κ] [IntCast κ] [LT κ] [DecidableLT κ] in
theorem contextOk_prepareRouteContext (router : GridRouter κ) (design : RoutedDesign)
    (positions : Dict String (ℚ × ℚ)) :
    ContextOk (prepareRouteContext router design positions) ∧
      ∀ p, (prepareRouteContext router design positions).obstacles.copper p = none := by
  obtain ⟨hedges, hplain⟩ := blockBoardEdges_empty (max (design.width / router.resolution).ceil 1)
    (max (design.height / router.resolution).ceil 1) (max design.layers 1)
  have hcomponents := blocks_blockComponents router design positions
    (blockBoardEdges (ObstacleMap.empty (max (design.width / router.resolution).ceil 1)
      (max (design.height / router.resolution).ceil 1) (max design.layers 1))
      (max (design.width / router.resolution).ceil 1)
      (max (design.height / router.resolution).ceil 1) (max design.layers 1))
  have hblocks := hedges.trans hcomponents
  exact ⟨⟨hcomponents.plain hplain, hblocks.width, hblocks.height, hblocks.layers,
    le_max_right _ 1⟩, fun p => congrFun hblocks.copper p⟩

/-! ## Runs -/

/-- The path of a net is on the map: its cells are the net's, and no cell around it is left to the nets
that follow. -/
structure OnMap (router : GridRouter κ) (kb : KnowledgeBase) (design : RoutedDesign)
    (obs : ObstacleMap) (plan : GridNetPlan) : Prop where
  owned : ∀ c ∈ occupiedCells plan, obs.copper c = some plan.net_id
  claimed : ∀ c ∈ occupiedCells plan, ∀ p, obs.Inner p → p.layer = c.layer →
    chebyshev c p ≤ clearCells router kb design plan.net_id → obs.copper p ≠ none
  inBounds : ∀ c ∈ occupiedCells plan, obs.inBounds c

/-- What a run keeps after the nets with the given ids. -/
structure RunInv (router : GridRouter κ) (kb : KnowledgeBase) (design : RoutedDesign)
    (s : GridRouteContext × RouteState) (ids : List String) : Prop where
  context : ContextOk s.1
  owners : ∀ p owner, s.1.obstacles.copper p = some owner → owner ∈ ids
  routed : ∀ plan ∈ s.2.routed, plan.net_id ∈ ids ∧ OnMap router kb design s.1.obstacles plan

/-- Routed nets keep their clearance. -/
def ClearanceKept (router : GridRouter κ) (kb : KnowledgeBase) (design : RoutedDesign)
    (routed : List GridNetPlan) : Prop :=
  ∀ A ∈ routed, ∀ B ∈ routed, A.net_id ≠ B.net_id →
    ∀ a ∈ occupiedCells A, ∀ b ∈ occupiedCells B, a.layer = b.layer →
      clearCells router kb design A.net_id < chebyshev a b

instance (router : GridRouter κ) (kb : KnowledgeBase) (design : RoutedDesign)
    (routed : List GridNetPlan) : Decidable (ClearanceKept router kb design routed) :=
  inferInstanceAs (Decidable (∀ A ∈ routed, ∀ B ∈ routed, A.net_id ≠ B.net_id →
    ∀ a ∈ occupiedCells A, ∀ b ∈ occupiedCells B, a.layer = b.layer →
      clearCells router kb design A.net_id < chebyshev a b))

/-- The grid positions of a net, when they do not all coincide, are farther than its clearance from the
paths on its layer of the nets before it that have a smaller clearance. -/
def EndsFar (router : GridRouter κ) (kb : KnowledgeBase) (pins : PinGeometry) (design : RoutedDesign)
    (s : GridRouteContext × RouteState) (net : Net) : Prop :=
  ∀ A ∈ s.2.routed, clearCells router kb design A.net_id < clearCells router kb design net.id →
    ∀ g ∈ gridPositions router pins net s.1, (∃ g' ∈ gridPositions router pins net s.1, g' ≠ g) →
      ∀ a ∈ occupiedCells A,
        a.layer = layerForNetClass (getNetClass design net.id) s.1.num_layers →
          clearCells router kb design net.id < chebyshev ⟨g.1, g.2, a.layer⟩ a

instance (router : GridRouter κ) (kb : KnowledgeBase) (pins : PinGeometry) (design : RoutedDesign)
    (s : GridRouteContext × RouteState) (net : Net) :
    Decidable (EndsFar router kb pins design s net) :=
  inferInstanceAs (Decidable (∀ A ∈ s.2.routed,
    clearCells router kb design A.net_id < clearCells router kb design net.id →
      ∀ g ∈ gridPositions router pins net s.1, (∃ g' ∈ gridPositions router pins net s.1, g' ≠ g) →
        ∀ a ∈ occupiedCells A,
          a.layer = layerForNetClass (getNetClass design net.id) s.1.num_layers →
            clearCells router kb design net.id < chebyshev ⟨g.1, g.2, a.layer⟩ a))

omit [Zero κ] [One κ] [Add κ] [Sub κ] [Mul κ] [IntCast κ] [LT κ] [DecidableLT κ] in
theorem OnMap.grows {obs obs' : ObstacleMap} {plan : GridNetPlan} {net_id : String}
    (h : OnMap router kb design obs plan) (hgrows : Grows net_id obs obs') :
    OnMap router kb design obs' plan where
  owned := fun c hc => hgrows.kept c plan.net_id (h.owned c hc)
  claimed := fun c hc p hp hlayer hdist => by
    obtain ⟨owner, howner⟩ := Option.ne_none_iff_exists'.mp
      (h.claimed c hc p (hgrows.inner_iff.mp hp) hlayer hdist)
    rw [hgrows.kept p owner howner]
    exact Option.some_ne_none _
  inBounds := fun c hc => hgrows.inBounds_iff.mpr (h.inBounds c hc)

variable {s : GridRouteContext × RouteState} {net : Net}

theorem routeNet_of_not_success (h : (planGridNet router kb pins design net s.1).1.success = false) :
    (routeNet router kb pins design s net).1 = s.1 ∧
      (routeNet router kb pins design s net).2.routed = s.2.routed := by
  have hcontext := planGridNet_of_not_success h
  unfold routeNet
  split
  rename_i plan context heq
  rw [heq] at h hcontext
  dsimp only at h hcontext
  simp only [h, hcontext]
  split
  · exact ⟨rfl, rfl⟩
  · exact ⟨rfl, rfl⟩

theorem routeNet_of_success {plan : GridNetPlan} {context : GridRouteContext}
    (h : planGridNet router kb pins design net s.1 = (plan, context)) (hroutable : plan.routable = true)
    (hsuccess : plan.success = true) :
    (routeNet router kb pins design s net).1 = context ∧
      (routeNet router kb pins design s net).2.routed = s.2.routed ++ [plan] := by
  simp [routeNet, h, hroutable, hsuccess]

omit [Zero κ] [One κ] [Add κ] [Sub κ] [Mul κ] [IntCast κ] [LT κ] [DecidableLT κ] in
variable {ids : List String}

theorem clearance_of_planned (hinv : RunInv router kb design s ids) (hnew : net.id ∉ ids) {obs' : ObstacleMap}
    {layer : ℤ} {grid_positions : List (ℤ × ℤ)} {cells : List GridPos}
    (hplanned : Planned s.1.obstacles obs' net.id (clearCells router kb design net.id) layer grid_positions cells)
    {A : GridNetPlan} (hA : A ∈ s.2.routed) {a b : GridPos} (ha : a ∈ occupiedCells A) (hb : b ∈ cells)
    (hlayer : a.layer = b.layer) :
    clearCells router kb design A.net_id < chebyshev a b ∧
      (clearCells router kb design net.id < chebyshev b a ∨
        ∃ g ∈ grid_positions, (∃ g' ∈ grid_positions, g' ≠ g) ∧ b = ⟨g.1, g.2, layer⟩) := by
  obtain ⟨hid, honmap⟩ := hinv.routed A hA
  constructor
  · -- a cell around the path of `A` has an owner, who is not the net
    by_contra hnear
    have hinner := hplanned.grows.inner_iff.mp (hplanned.inner b hb)
    obtain ⟨owner, howner⟩ := Option.ne_none_iff_exists'.mp
      (honmap.claimed a ha b hinner hlayer.symm (not_lt.mp hnear))
    have hkept := hplanned.grows.kept b owner howner
    rw [hplanned.owned b hb] at hkept
    have hmem := hinv.owners b owner howner
    rw [← Option.some.inj hkept] at hmem
    exact hnew hmem
  · rcases hplanned.reserved b hb with haround | hend
    · left
      by_contra hnear
      have hin := hplanned.grows.inBounds_iff.mpr (honmap.inBounds a ha)
      have hnet := haround a hin hlayer (not_lt.mp hnear)
      rw [hplanned.grows.kept a A.net_id (honmap.owned a ha)] at hnet
      rw [Option.some.inj hnet] at hid
      exact hnew hid
    · exact Or.inr hend

theorem runInv_routeNet (hpad : router.pad_aware = false) (hinv : RunInv router kb design s ids) (net : Net) :
    RunInv router kb design (routeNet router kb pins design s net) (ids ++ [net.id]) := by
  cases hsuccess : (planGridNet router kb pins design net s.1).1.success with
  | false =>
    obtain ⟨hcontext, hrouted⟩ := routeNet_of_not_success hsuccess
    refine ⟨hcontext ▸ hinv.context, ?_, ?_⟩
    · rw [hcontext]
      exact fun p owner h => mem_append_left _ (hinv.owners p owner h)
    · rw [hcontext, hrouted]
      exact fun plan hplan => ⟨mem_append_left _ (hinv.routed plan hplan).1,
        (hinv.routed plan hplan).2⟩
  | true =>
    obtain ⟨plan, obs', heq, hroutable, hs, hid, hplanned⟩ :=
      routed_planGridNet hpad hinv.context hsuccess
    obtain ⟨hcontext, hrouted⟩ := routeNet_of_success heq hroutable hs
    have hgrows := hplanned.grows
    refine ⟨?_, ?_, ?_⟩
    · rw [hcontext]
      exact ⟨hgrows.plain hinv.context.plain, hgrows.width.trans hinv.context.width,
        hgrows.height.trans hinv.context.height, hgrows.layers.trans hinv.context.layers,
        hinv.context.layers_pos⟩
    · rw [hcontext]
      intro p owner h
      rcases hgrows.taken p owner h with h | rfl
      · exact mem_append_left _ (hinv.owners p owner h)
      · exact mem_append_right _ (mem_singleton_self _)
    · rw [hcontext, hrouted]
      intro plan' hplan'
      rcases mem_append.mp hplan' with hplan' | hplan'
      · obtain ⟨hmem, honmap⟩ := hinv.routed plan' hplan'
        exact ⟨mem_append_left _ hmem, honmap.grows hgrows⟩
      · obtain rfl := mem_singleton.mp hplan'
        rw [hid]
        refine ⟨mem_append_right _ (mem_singleton_self _), ?_, ?_, ?_⟩
        · rw [hid]
          exact hplanned.owned
        · rw [hid]
          exact hplanned.claimed
        · exact fun c hc => (hplanned.inner c hc).inBounds

/-- One more net keeps the clearance exactly when its ends are far from the nets before it. -/
theorem clearanceKept_routeNet (hpad : router.pad_aware = false) (hinv : RunInv router kb design s ids)
    (hnew : net.id ∉ ids) :
    ClearanceKept router kb design (routeNet router kb pins design s net).2.routed ↔
      ClearanceKept router kb design s.2.routed ∧
        ((planGridNet router kb pins design net s.1).1.success = true →
          EndsFar router kb pins design s net) := by
  cases hsuccess : (planGridNet router kb pins design net s.1).1.success with
  | false =>
    rw [(routeNet_of_not_success hsuccess).2]
    simp
  | true =>
    obtain ⟨plan, obs', heq, hroutable, hs, hid, hplanned⟩ :=
      routed_planGridNet hpad hinv.context hsuccess
    rw [(routeNet_of_success heq hroutable hs).2]
    have hne : ∀ A ∈ s.2.routed, A.net_id ≠ plan.net_id := by
      intro A hA heq
      exact hnew (hid ▸ heq ▸ (hinv.routed A hA).1)
    constructor
    · intro hkept
      refine ⟨fun A hA B hB => hkept A (mem_append_left _ hA) B (mem_append_left _ hB), ?_⟩
      intro _ A hA _ g hg hother a ha hlayer
      have hend := hplanned.ends g hg hother
      rw [← hlayer] at hend
      rw [← hid]
      exact hkept plan (mem_append_right _ (mem_singleton_self _)) A
        (mem_append_left _ hA) (hne A hA).symm _ hend a ha rfl
    · rintro ⟨hkept, hfar⟩ A hA B hB hAB a ha b hb hlayer
      rcases mem_append.mp hA with hAold | hAnew <;>
        rcases mem_append.mp hB with hBold | hBnew
      · exact hkept A hAold B hBold hAB a ha b hb hlayer
      · obtain rfl := mem_singleton.mp hBnew
        exact (clearance_of_planned hinv hnew hplanned hAold ha hb hlayer).1
      · obtain rfl := mem_singleton.mp hAnew
        obtain ⟨hother, hown⟩ := clearance_of_planned hinv hnew hplanned hBold hb ha hlayer.symm
        rw [hid]
        rcases hown with hown | ⟨g, hg, hdiffer, rfl⟩
        · exact hown
        · -- an end of the net: the clearance of the other net is kept in any case
          rcases lt_or_ge (clearCells router kb design B.net_id) (clearCells router kb design net.id)
            with hlt | hge
          · have h := hfar rfl B hBold hlt g hg hdiffer b hb hlayer.symm
            rw [← hlayer] at h
            exact h
          · rw [chebyshev_comm] at hother
            exact lt_of_le_of_lt hge hother
      · obtain rfl := mem_singleton.mp hAnew
        obtain rfl := mem_singleton.mp hBnew
        exact absurd rfl hAB

theorem routeOrderedNets_concat (nets : List Net) (net : Net) :
    routeOrderedNets router kb pins design positions (nets ++ [net]) =
      routeNet router kb pins design (routeOrderedNets router kb pins design positions nets) net := by
  simp [routeOrderedNets, foldl_append]

theorem runInv_routeOrderedNets (hpad : router.pad_aware = false) (nets : List Net) :
    RunInv router kb design (routeOrderedNets router kb pins design positions nets)
      (nets.map Net.id) := by
  induction nets using reverseRecOn with
  | nil =>
    obtain ⟨hok, hcopper⟩ := contextOk_prepareRouteContext router design positions
    refine ⟨hok, ?_, fun plan hplan => absurd hplan not_mem_nil⟩
    intro p owner h
    rw [show (routeOrderedNets router kb pins design positions []).1 =
      prepareRouteContext router design positions from rfl, hcopper p] at h
    cases h
  | append_singleton nets net ih =>
    rw [routeOrderedNets_concat, map_append]
    exact runInv_routeNet hpad ih net

/-- **When routed nets keep their clearance**: in every order of the nets of a design, exactly when the
ends of each net that is routed are far enough from the nets before it. -/
theorem clearanceKept_iff (hpad : router.pad_aware = false) {order : List Net}
    (horder : order.Perm design.nets) :
    ClearanceKept router kb design
        (routeOrderedNets router kb pins design positions order).2.routed ↔
      ∀ pre net post, order = pre ++ net :: post →
        (planGridNet router kb pins design net
          (routeOrderedNets router kb pins design positions pre).1).1.success = true →
        EndsFar router kb pins design
          (routeOrderedNets router kb pins design positions pre) net := by
  have hnodup : (order.map Net.id).Nodup := (horder.map Net.id).nodup_iff.mpr design.nets_nodup
  clear horder
  induction order using reverseRecOn with
  | nil =>
    constructor
    · intro _ pre net post h
      simp at h
    · exact fun _ A hA => absurd hA not_mem_nil
  | append_singleton nets net ih =>
    rw [map_append, nodup_append] at hnodup
    obtain ⟨hnodup, -, hdisjoint⟩ := hnodup
    have hnew : net.id ∉ nets.map Net.id := fun h => hdisjoint _ h _ mem_cons_self rfl
    rw [routeOrderedNets_concat,
      clearanceKept_routeNet hpad (runInv_routeOrderedNets hpad nets) hnew]
    constructor
    · rintro ⟨hkept, hlast⟩ pre net' post h
      have hbefore := (ih hnodup).mp hkept
      rcases eq_nil_or_concat' post with rfl | ⟨post', last, rfl⟩
      · obtain ⟨rfl, hnet⟩ := append_inj' h rfl
        obtain rfl : net = net' := singleton_inj.mp hnet
        exact hlast
      · have h' : nets ++ [net] = (pre ++ net' :: post') ++ [last] := by simpa using h
        exact hbefore pre net' post' (append_inj' h' rfl).1
    · intro hall
      refine ⟨(ih hnodup).mpr fun pre net' post h => hall pre net' (post ++ [net]) (by simp [h]), ?_⟩
      exact hall nets net [] rfl

end Run

/-! ## A via at the end of a path -/

def pointComponent (id : String) : Component := ⟨id, id, none, none⟩

/-- A net between the pins of two such components. -/
def pointNet (id first second : String) : Net := ⟨id, [⟨first, "1"⟩, ⟨second, "1"⟩]⟩

/-- A board of 11 by 4 cells of 0.25 mm and two layers with a differential net and an RF net. -/
def viaDesign : RoutedDesign where
  components := ["J1", "J2", "U1", "U2"].map pointComponent
  nets := [pointNet "USB_D" "J1" "J2", pointNet "RF_ANT" "U1" "U2"]
  nets_nodup := by decide
  net_classes := (Dict.empty.set "USB_D" NetClass.differential).set "RF_ANT" NetClass.rf
  width := 11 / 4
  height := 1
  layers := 2

/-- The default rules of the two classes. -/
def viaRules : KnowledgeBase where
  getRule := fun net_class =>
    if net_class = NetClass.rf then ⟨3 / 10, 3 / 10⟩ else ⟨1 / 5, 15 / 100⟩

/-- Components without footprints: a track leaves them at their position. -/
def pointGeometry : PinGeometry where
  padForPin := fun _ _ => none
  routePointForNode := fun _ _ pos => pos
  rotatedOffset := fun x y _ => (x, y)

/-- The default router; `sqrt2` is the value of the floating point number. -/
def defaultRouter : GridRouter ℚ where
  resolution := 1 / 4
  via_cost := 10
  turn_penalty := 1 / 5
  max_iterations := 200000
  pad_aware := false
  sqrt2 := 6369051672525773 / 4503599627370496

/-- The differential net crosses the board in column 5, the RF net leads from column 1 to column `x`. -/
def viaPlacement (x : ℚ) : Dict String (ℚ × ℚ) :=
  (((Dict.empty.set "J1" (5 / 4, 1 / 4)).set "J2" (5 / 4, 1 / 2)).set "U1" (1 / 4, 1 / 4)).set
    "U2" (x / 4, 1 / 2)

/-- The RF net passes under the differential net and comes up two cells beside it, which is within its
clearance of two cells. -/
theorem not_clearanceKept_of_via_at_end :
    ¬ ClearanceKept defaultRouter viaRules viaDesign
      (routeOrderedNets defaultRouter viaRules pointGeometry viaDesign (viaPlacement 7)
        viaDesign.nets).2.routed := by
  decide +kernel

/-- Four cells beside the differential net it is far enough. -/
theorem clearanceKept_via_far :
    (routeOrderedNets defaultRouter viaRules pointGeometry viaDesign (viaPlacement 9)
        viaDesign.nets).2.routed.length = 2 ∧
      ClearanceKept defaultRouter viaRules viaDesign
        (routeOrderedNets defaultRouter viaRules pointGeometry viaDesign (viaPlacement 9)
          viaDesign.nets).2.routed := by
  refine ⟨by decide +kernel, (clearanceKept_iff rfl (List.Perm.refl _)).mpr ?_⟩
  rintro (_ | ⟨first, _ | ⟨second, pre⟩⟩) net post h hrouted
  · exact fun A hA => absurd hA not_mem_nil
  · cases h
    clear hrouted
    decide +kernel
  · simp [viaDesign] at h

end ZapTrace
