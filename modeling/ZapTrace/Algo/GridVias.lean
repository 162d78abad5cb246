import ZapTrace.Algo.ClearanceRuns

/-!
# Traces and vias

Each pair of consecutive cells of an edge path becomes a trace on the layer of the first, and a via at
the first where the layer changes. A via carries no layers. The cells that a layer change joins are
cells of the path, so they are the net's, and no cell of another net is one of them: a via is clear of
other nets on the two layers it was made for. On a board with two layers these are all layers; with
three, a net on the third layer passes under it.

## Main results

* `vias_gridOutput`: the vias are at the layer changes
* `vias_clear`: what is kept clear of a via
-/

namespace ZapTrace

open ObstacleMap GridRouter List

/-! ## Output -/

structure TraceSegment where
  layer : String
  start : ℚ × ℚ
  stop : ℚ × ℚ
  width : ℚ
  net_id : String
  deriving DecidableEq

/-- A via: its place, the diameters of its pad and its hole, and its net. -/
structure Via where
  x : ℚ
  y : ℚ
  pad : ℚ
  hole : ℚ
  net_id : String
  deriving DecidableEq

structure GridOutput where
  traces : List TraceSegment := []
  vias : List Via := []
  layers_used : List String := []

/-- `round(q, 3)` -/
def round3 (q : ℚ) : ℚ := pyRound (q * 1000) / 1000

/-- The place of a cell on the board. -/
def placeOf (resolution : ℚ) (pos : GridPos) : ℚ × ℚ :=
  (round3 (pos.x * resolution), round3 (pos.y * resolution))

section Output

variable (resolution via_pad via_hole : ℚ)

/-- The trace of one segment, with its via. -/
def appendSegmentOutput (plan : GridNetPlan) (state : GridOutput) (seg : GridPos × GridPos) : GridOutput :=
  let layer_name := "layer_" ++ toString seg.1.layer
  { layers_used := if layer_name ∈ state.layers_used then state.layers_used
      else state.layers_used ++ [layer_name]
    traces := state.traces ++
      [⟨layer_name, placeOf resolution seg.1, placeOf resolution seg.2, plan.width_mm, plan.net_id⟩]
    vias := if seg.1.layer ≠ seg.2.layer then
        state.vias ++ [⟨(placeOf resolution seg.1).1, (placeOf resolution seg.1).2, via_pad, via_hole,
          plan.net_id⟩]
      else state.vias }

def appendGridNetOutput (state : GridOutput) (plan : GridNetPlan) : GridOutput :=
  plan.edge_paths.foldl (fun state smooth =>
    (segments smooth).foldl (appendSegmentOutput resolution via_pad via_hole plan) state) state

def gridOutput (routed : List GridNetPlan) : GridOutput :=
  routed.foldl (appendGridNetOutput resolution via_pad via_hole) {}

end Output

/-- The layer changes of a net. -/
def viaSegments (plan : GridNetPlan) : List (GridPos × GridPos) :=
  plan.edge_paths.flatMap fun smooth => (segments smooth).filter fun seg => seg.1.layer ≠ seg.2.layer

section Output

variable {resolution via_pad via_hole : ℚ}

theorem vias_foldl_appendSegmentOutput (plan : GridNetPlan) (state : GridOutput)
    (segs : List (GridPos × GridPos)) :
    (segs.foldl (appendSegmentOutput resolution via_pad via_hole plan) state).vias =
      state.vias ++ (segs.filter fun seg => seg.1.layer ≠ seg.2.layer).map fun seg =>
        ⟨(placeOf resolution seg.1).1, (placeOf resolution seg.1).2, via_pad, via_hole, plan.net_id⟩ := by
  induction segs generalizing state with
  | nil => simp
  | cons seg segs ih =>
    rw [foldl_cons, ih]
    by_cases hlayer : seg.1.layer = seg.2.layer
    · simp [appendSegmentOutput, hlayer]
    · simp [appendSegmentOutput, hlayer]

theorem vias_appendGridNetOutput (state : GridOutput) (plan : GridNetPlan) :
    (appendGridNetOutput resolution via_pad via_hole state plan).vias =
      state.vias ++ (viaSegments plan).map fun seg =>
        ⟨(placeOf resolution seg.1).1, (placeOf resolution seg.1).2, via_pad, via_hole, plan.net_id⟩ := by
  unfold appendGridNetOutput viaSegments
  generalize plan.edge_paths = paths
  induction paths generalizing state with
  | nil => simp
  | cons smooth paths ih =>
    rw [foldl_cons, ih, vias_foldl_appendSegmentOutput, flatMap_cons, map_append,
      append_assoc]

/-- **The vias** of the output are at the layer changes of the nets that are routed. -/
theorem vias_gridOutput (routed : List GridNetPlan) :
    (gridOutput resolution via_pad via_hole routed).vias =
      routed.flatMap fun plan => (viaSegments plan).map fun seg =>
        ⟨(placeOf resolution seg.1).1, (placeOf resolution seg.1).2, via_pad, via_hole, plan.net_id⟩ := by
  induction routed using reverseRecOn with
  | nil => rfl
  | append_singleton routed plan ih =>
    rw [gridOutput, foldl_concat, ← gridOutput, vias_appendGridNetOutput, ih, flatMap_append]
    simp

end Output

/-! ## What is kept clear -/

/-- No cell of another net's path is above, below or at a via. -/
def ViasClear (routed : List GridNetPlan) : Prop :=
  ∀ A ∈ routed, ∀ via ∈ viaSegments A, ∀ B ∈ routed, A.net_id ≠ B.net_id →
    ∀ c ∈ occupiedCells B, ¬ (c.x = via.1.x ∧ c.y = via.1.y)

instance (routed : List GridNetPlan) : Decidable (ViasClear routed) :=
  inferInstanceAs (Decidable (∀ A ∈ routed, ∀ via ∈ viaSegments A, ∀ B ∈ routed,
    A.net_id ≠ B.net_id → ∀ c ∈ occupiedCells B, ¬ (c.x = via.1.x ∧ c.y = via.1.y)))

/-- No cell of another net's path is at a via, on the two layers that it joins. -/
def ViasClearOnJoined (routed : List GridNetPlan) : Prop :=
  ∀ A ∈ routed, ∀ via ∈ viaSegments A, ∀ B ∈ routed, A.net_id ≠ B.net_id →
    ∀ c ∈ occupiedCells B, c.layer = via.1.layer ∨ c.layer = via.2.layer →
      ¬ (c.x = via.1.x ∧ c.y = via.1.y)

theorem gridPos_eq {p q : GridPos} (hx : p.x = q.x) (hy : p.y = q.y) (hlayer : p.layer = q.layer) :
    p = q := by
  cases p
  cases q
  rw [GridPos.mk.injEq]
  exact ⟨hx, hy, hlayer⟩

theorem mem_occupiedCells_of_viaSegments {plan : GridNetPlan} {via : GridPos × GridPos}
    (hvia : via ∈ viaSegments plan) :
    via.1 ∈ occupiedCells plan ∧ via.2 ∈ occupiedCells plan ∧ via.1.layer ≠ via.2.layer := by
  obtain ⟨smooth, hsmooth, hseg⟩ := mem_flatMap.mp hvia
  obtain ⟨hseg, hlayer⟩ := mem_filter.mp hseg
  have hlayer' : via.1.layer ≠ via.2.layer := by simpa using hlayer
  have hcells : ∀ c ∈ segmentCells via.1 via.2, c ∈ occupiedCells plan := fun c hc =>
    mem_flatMap.mpr ⟨smooth, hsmooth, mem_flatMap.mpr ⟨via, hseg, hc⟩⟩
  rw [segmentCells, if_neg hlayer'] at hcells
  exact ⟨hcells _ mem_cons_self, hcells _ (mem_cons_of_mem _ mem_cons_self), hlayer'⟩

section Run

variable {κ : Type} [Zero κ] [One κ] [Add κ] [Sub κ] [Mul κ] [IntCast κ] [LT κ] [DecidableLT κ]
variable {router : GridRouter κ} {kb : KnowledgeBase} {pins : PinGeometry} {design : RoutedDesign}
  {positions : Dict String (ℚ × ℚ)}

def IsSearched (router : GridRouter κ) (net_id : String) (path : List GridPos) : Prop :=
  ∃ obs start goal clear_cells raw,
    router.astar obs start goal (some net_id) clear_cells = some raw ∧ path = simplifyPath raw

theorem isSearched_of_mem_routeMstPaths {grid_positions : List (ℤ × ℤ)} {layer clear_cells : ℤ}
    {net_id : String} {edges : List (ℕ × ℕ)} {obs obs' : ObstacleMap} {paths : List (List GridPos)}
    (h : router.routeMstPaths grid_positions layer clear_cells net_id edges obs = some (paths, obs'))
    {path : List GridPos} (hpath : path ∈ paths) : IsSearched router net_id path := by
  induction edges generalizing obs paths with
  | nil =>
    cases h
    cases hpath
  | cons edge edges ih =>
    obtain ⟨first, second⟩ := edge
    obtain ⟨p, q, raw, mid, rest, -, -, hraw, -, hrest, rfl⟩ := routeMstPaths_cons h
    rcases mem_cons.mp hpath with rfl | hpath
    · exact ⟨_, _, _, _, raw, hraw, rfl⟩
    · exact ih hrest hpath

theorem isSearched_of_mem_edge_paths {net : Net} {context : GridRouteContext} {path : List GridPos}
    (hpath : path ∈ (planGridNet router kb pins design net context).1.edge_paths) :
    IsSearched router net.id path := by
  unfold planGridNet at hpath
  dsimp only at hpath
  split at hpath
  · cases hpath
  · split at hpath
    · cases hpath
    · split at hpath
      · cases hpath
      · split at hpath
        · cases hpath
        · rename_i paths staged hpaths
          exact isSearched_of_mem_routeMstPaths hpaths hpath

theorem forall_routed {P : GridNetPlan → Prop}
    (hplan : ∀ net context, P (planGridNet router kb pins design net context).1) (nets : List Net)
    (context : GridRouteContext) : ∀ plan ∈ (nets.foldl (routeNet router kb pins design)
      (context, ⟨[], [], 0⟩)).2.routed, P plan := by
  induction nets using reverseRecOn with
  | nil => exact fun plan h => absurd h not_mem_nil
  | append_singleton nets net ih =>
    rw [foldl_concat]
    generalize nets.foldl (routeNet router kb pins design) (context, ⟨[], [], 0⟩) = s at ih ⊢
    intro plan h
    unfold routeNet at h
    split at h
    rename_i plan' context' heq
    have hnew := hplan net s.1
    rw [heq] at hnew
    split at h
    · exact ih plan h
    · split at h
      · exact ih plan h
      · rcases mem_append.mp h with h | h
        · exact ih plan h
        · obtain rfl := mem_singleton.mp h
          exact hnew

omit [Zero κ] [One κ] [Add κ] [Sub κ] [Mul κ] [IntCast κ] [LT κ] [DecidableLT κ] in
theorem layer_eq_of_isChain {obs : ObstacleMap} {net_id : Option String} {clear_cells : ℤ} {first : GridPos}
    {path : List GridPos} (hchain : (first :: path).IsChain (IsMove obs net_id clear_cells true)) :
    ∀ c ∈ first :: path, c.layer = first.layer := by
  induction path generalizing first with
  | nil => exact fun c hc => by rw [mem_singleton.mp hc]
  | cons second path ih =>
    obtain ⟨hmove, htail⟩ := isChain_cons_cons.mp hchain
    have hlayer : second.layer = first.layer := by
      rcases hmove with ⟨d, -, rfl, -⟩ | ⟨hpad, -⟩
      · rfl
      · cases hpad
    intro c hc
    rcases mem_cons.mp hc with rfl | hc
    · rfl
    · exact (ih htail c hc).trans hlayer

theorem viaSegments_planGridNet (net : Net) (context : GridRouteContext) :
    ∀ via ∈ viaSegments (planGridNet router kb pins design net context).1,
      router.pad_aware = false ∧ via.1.x = via.2.x ∧ via.1.y = via.2.y := by
  intro via hvia
  obtain ⟨smooth, hsmooth, hseg⟩ := mem_flatMap.mp hvia
  obtain ⟨hseg, hlayer⟩ := mem_filter.mp hseg
  have hlayer' : via.1.layer ≠ via.2.layer := by simpa using hlayer
  obtain ⟨obs, start, goal, clear_cells, raw, hraw, rfl⟩ := isSearched_of_mem_edge_paths hsmooth
  obtain ⟨-, -, -, -, hchain, -, -⟩ := astar_sound hraw
  have haligned := rel_of_mem_segments (simplifyPath_isChain (hchain.imp fun _ _ h => h.aligned)) hseg
  refine ⟨?_, haligned.resolve_left hlayer'⟩
  by_contra hpad
  rw [Bool.not_eq_false] at hpad
  rw [hpad] at hchain
  cases raw with
  | nil => cases hseg
  | cons first raw =>
    obtain ⟨hp, hq⟩ := mem_of_mem_segments hseg
    have hfirst := layer_eq_of_isChain hchain
    exact hlayer' ((hfirst _ (mem_of_mem_simplifyPath hp)).trans (hfirst _ (mem_of_mem_simplifyPath hq)).symm)

omit [Zero κ] [One κ] [Add κ] [Sub κ] [Mul κ] [IntCast κ] [LT κ] [DecidableLT κ] in
theorem viasClearOnJoined_of_runInv {s : GridRouteContext × RouteState} {ids : List String}
    (hinv : RunInv router kb design s ids)
    (hsegments : ∀ A ∈ s.2.routed, ∀ via ∈ viaSegments A, via.1.x = via.2.x ∧ via.1.y = via.2.y) :
    ViasClearOnJoined s.2.routed := by
  rintro A hA via hvia B hB hne c hc hlayer ⟨hx, hy⟩
  obtain ⟨hfirst, hsecond, -⟩ := mem_occupiedCells_of_viaSegments hvia
  have hplace := hsegments A hA via hvia
  have hmem : c ∈ occupiedCells A := by
    rcases hlayer with hlayer | hlayer
    · have hc : c = via.1 := gridPos_eq hx hy hlayer
      rwa [hc]
    · have hc : c = via.2 := gridPos_eq (hx.trans hplace.1) (hy.trans hplace.2) hlayer
      rwa [hc]
  have hownA := (hinv.routed A hA).2.owned c hmem
  rw [(hinv.routed B hB).2.owned c hc] at hownA
  exact hne (Option.some.inj hownA).symm

omit [Zero κ] [One κ] [Add κ] [Sub κ] [Mul κ] [IntCast κ] [LT κ] [DecidableLT κ] in
theorem viasClear_of_layers_le {s : GridRouteContext × RouteState} {ids : List String}
    (hinv : RunInv router kb design s ids) (hlayers : s.1.obstacles.layers ≤ 2)
    (hclear : ViasClearOnJoined s.2.routed) : ViasClear s.2.routed := by
  intro A hA via hvia B hB hne c hc
  refine hclear A hA via hvia B hB hne c hc ?_
  obtain ⟨hfirst, hsecond, hdiffer⟩ := mem_occupiedCells_of_viaSegments hvia
  have hlayer1 := (inBounds_iff.mp ((hinv.routed A hA).2.inBounds _ hfirst)).1
  have hlayer2 := (inBounds_iff.mp ((hinv.routed A hA).2.inBounds _ hsecond)).1
  have hlayer := (inBounds_iff.mp ((hinv.routed B hB).2.inBounds c hc)).1
  omega

theorem layers_routeOrderedNets (hpad : router.pad_aware = false) (nets : List Net) :
    (routeOrderedNets router kb pins design positions nets).1.obstacles.layers = max design.layers 1 := by
  induction nets using reverseRecOn with
  | nil =>
    have hok := (contextOk_prepareRouteContext router design positions).1
    exact hok.layers
  | append_singleton nets net ih =>
    rw [routeOrderedNets_concat]
    cases hsuccess : (planGridNet router kb pins design net
        (routeOrderedNets router kb pins design positions nets).1).1.success with
    | false => rw [(routeNet_of_not_success hsuccess).1, ih]
    | true =>
      obtain ⟨plan, obs', heq, hroutable, hs, -, hplanned⟩ := routed_planGridNet hpad
        (runInv_routeOrderedNets hpad nets).context hsuccess
      rw [(routeNet_of_success heq hroutable hs).1, ← ih]
      exact hplanned.grows.layers

/-- The context that a run starts with, which with pad copper may be any. -/
def startContext (router : GridRouter κ) (design : RoutedDesign) (positions : Dict String (ℚ × ℚ))
    (pad_context : GridRouteContext) : GridRouteContext :=
  if router.pad_aware then pad_context else prepareRouteContext router design positions

def routedNets (router : GridRouter κ) (kb : KnowledgeBase) (pins : PinGeometry) (design : RoutedDesign)
    (positions : Dict String (ℚ × ℚ)) (pad_context : GridRouteContext) (nets : List Net) :
    List GridNetPlan :=
  (nets.foldl (routeNet router kb pins design)
    (startContext router design positions pad_context, ⟨[], [], 0⟩)).2.routed

/-- **What is kept clear of a via**, for every order of the nets: other nets are not at it on the layers
that it joins, and on a board with at most two layers nowhere. With pad copper there are no vias. -/
theorem vias_clear (pad_context : GridRouteContext) (nets : List Net) (via_pad via_hole : ℚ) :
    (gridOutput router.resolution via_pad via_hole
        (routedNets router kb pins design positions pad_context nets)).vias =
        ((routedNets router kb pins design positions pad_context nets).flatMap fun A =>
          (viaSegments A).map fun via => ⟨(placeOf router.resolution via.1).1,
            (placeOf router.resolution via.1).2, via_pad, via_hole, A.net_id⟩) ∧
      ViasClearOnJoined (routedNets router kb pins design positions pad_context nets) ∧
      (design.layers ≤ 2 → ViasClear (routedNets router kb pins design positions pad_context nets)) ∧
      (router.pad_aware = true → ∀ A ∈ routedNets router kb pins design positions pad_context nets,
        viaSegments A = []) := by
  refine ⟨vias_gridOutput _, ?_⟩
  have hsegments : ∀ A ∈ routedNets router kb pins design positions pad_context nets,
      ∀ via ∈ viaSegments A, router.pad_aware = false ∧ via.1.x = via.2.x ∧ via.1.y = via.2.y :=
    forall_routed viaSegments_planGridNet nets _
  cases hpad : router.pad_aware with
  | true =>
    have hnone : ∀ A ∈ routedNets router kb pins design positions pad_context nets,
        viaSegments A = [] := by
      intro A hA
      rw [eq_nil_iff_forall_not_mem]
      intro via hvia
      have hfalse := (hsegments A hA via hvia).1
      rw [hpad] at hfalse
      cases hfalse
    have hclear : ∀ A ∈ routedNets router kb pins design positions pad_context nets,
        ∀ via, via ∉ viaSegments A := by
      intro A hA via hvia
      rw [hnone A hA] at hvia
      cases hvia
    exact ⟨fun A hA via hvia => absurd hvia (hclear A hA via),
      fun _ A hA via hvia => absurd hvia (hclear A hA via), fun _ => hnone⟩
  | false =>
    have hrun : routedNets router kb pins design positions pad_context nets =
        (routeOrderedNets router kb pins design positions nets).2.routed := by
      rw [routedNets, startContext, hpad, if_neg (by decide), routeOrderedNets]
    have hinv : RunInv router kb design (routeOrderedNets router kb pins design positions nets)
        (nets.map Net.id) := runInv_routeOrderedNets hpad nets
    rw [hrun] at hsegments ⊢
    have hjoined := viasClearOnJoined_of_runInv hinv fun A hA via hvia => (hsegments A hA via hvia).2
    refine ⟨hjoined, fun hlayers => viasClear_of_layers_le hinv ?_ hjoined, fun h => by cases h⟩
    rw [layers_routeOrderedNets hpad]
    omega

end Run

/-! ### A net under a via -/

/-- A board with three layers: the RF net passes under the differential net, and the supply net leads
over the board on the layer that neither is on. -/
def throughDesign : RoutedDesign where
  components := ["J1", "J2", "U1", "U2", "P1", "P2"].map pointComponent
  nets := [pointNet "USB_D" "J1" "J2", pointNet "RF_ANT" "U1" "U2", pointNet "VCC" "P1" "P2"]
  nets_nodup := by decide
  net_classes := ((Dict.empty.set "USB_D" NetClass.differential).set "RF_ANT" NetClass.rf).set "VCC"
    NetClass.powerLow
  width := 11 / 4
  height := 1
  layers := 3

def throughPlacement : Dict String (ℚ × ℚ) :=
  ((viaPlacement 7).set "P1" (2 / 4, 2 / 4)).set "P2" (9 / 4, 2 / 4)

/-- The supply net is under the second via of the RF net. -/
theorem not_viasClear_throughDesign :
    ¬ ViasClear (routedNets defaultRouter viaRules pointGeometry throughDesign throughPlacement
      (prepareRouteContext defaultRouter throughDesign throughPlacement) throughDesign.nets) := by
  decide +kernel

end ZapTrace
