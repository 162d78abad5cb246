import ZapTrace.Algo.AstarPath

/-!
# Ownership on the obstacle map

Cells become copper of a net in two places: around the ends of its edges, where the net takes what no
other net has, and along its segments, where the reservation is refused when another net has a cell.
So a cell never changes from one net to another (`Grows`), and after a net is planned each cell of the
board around one of its ends belongs to it or to another net (`Claimed`).

Without pad copper the edge of the board is the only place a net can never take: it stays blocked, and
every free cell is inside (`Plain`).

## Main results

* `grows_unblockEndpoint`, `grows_reservePath`, `GridRouter.grows_routeMstPaths`,
  `GridRouter.grows_planGridNet`: planning keeps owners
* `claimed_unblockEndpoint`, `resolve_of_claimed`: an end of an edge is where the net wants it, and its
  own
* `reserved_of_reservePath`: the cells along the segments are the net's
-/

namespace ZapTrace

open Option

namespace ObstacleMap

/-- On the grid, and not on the edge of the board. -/
def Inner (obs : ObstacleMap) (p : GridPos) : Prop :=
  (0 ≤ p.layer ∧ p.layer < obs.layers) ∧
    (0 < p.x ∧ p.x < obs.width - 1) ∧ 0 < p.y ∧ p.y < obs.height - 1

theorem Inner.inBounds {obs : ObstacleMap} {p : GridPos} (h : obs.Inner p) : obs.inBounds p := by
  obtain ⟨hlayer, hx, hy⟩ := h
  exact inBounds_iff.mpr ⟨hlayer, by omega, by omega⟩

/-- A map without pads, whose cells on the edge of the board are blocked. -/
structure Plain (obs : ObstacleMap) : Prop where
  pads : ∀ p, obs.pads p = none
  pad_conflicts : ∀ p, obs.pad_conflicts p = false
  static : obs.enforce_static_clearance = false
  border : ∀ p, obs.inBounds p → ¬ obs.Inner p → obs.cells p = true

theorem Plain.inner_of_isFree {obs : ObstacleMap} (hplain : obs.Plain) {p : GridPos}
    {net_id : Option String} (h : obs.isFree p net_id) : obs.Inner p := by
  by_contra hinner
  have hblocked := hplain.border p (inBounds_of_isFree h) hinner
  rw [cells_of_isFree h] at hblocked
  cases hblocked

end ObstacleMap

open ObstacleMap

/-- What planning a net may change: cells inside the board are freed, and cells that no net has become
its own. -/
structure Grows (net_id : String) (obs obs' : ObstacleMap) : Prop where
  width : obs'.width = obs.width
  height : obs'.height = obs.height
  layers : obs'.layers = obs.layers
  pads : obs'.pads = obs.pads
  pad_conflicts : obs'.pad_conflicts = obs.pad_conflicts
  static : obs'.enforce_static_clearance = obs.enforce_static_clearance
  freed : ∀ p, obs.cells p = false → obs'.cells p = false
  border : ∀ p, ¬ obs.Inner p → obs'.cells p = obs.cells p
  kept : ∀ p owner, obs.copper p = some owner → obs'.copper p = some owner
  taken : ∀ p owner, obs'.copper p = some owner → obs.copper p = some owner ∨ owner = net_id

section Grows

variable {net_id : String} {obs obs' obs'' : ObstacleMap}

theorem Grows.refl (net_id : String) (obs : ObstacleMap) : Grows net_id obs obs where
  width := rfl
  height := rfl
  layers := rfl
  pads := rfl
  pad_conflicts := rfl
  static := rfl
  freed := fun _ h => h
  border := fun _ _ => rfl
  kept := fun _ _ h => h
  taken := fun _ _ h => Or.inl h

theorem Grows.inner_iff (h : Grows net_id obs obs') {p : GridPos} : obs'.Inner p ↔ obs.Inner p := by
  rw [ObstacleMap.Inner, ObstacleMap.Inner, h.width, h.height, h.layers]

theorem Grows.inBounds_iff (h : Grows net_id obs obs') {p : GridPos} :
    obs'.inBounds p ↔ obs.inBounds p := by
  rw [ObstacleMap.inBounds_iff, ObstacleMap.inBounds_iff, h.width, h.height, h.layers]

theorem Grows.trans (h : Grows net_id obs obs') (h' : Grows net_id obs' obs'') :
    Grows net_id obs obs'' where
  width := h'.width.trans h.width
  height := h'.height.trans h.height
  layers := h'.layers.trans h.layers
  pads := h'.pads.trans h.pads
  pad_conflicts := h'.pad_conflicts.trans h.pad_conflicts
  static := h'.static.trans h.static
  freed := fun p hp => h'.freed p (h.freed p hp)
  border := fun p hp =>
    (h'.border p fun hinner => hp (h.inner_iff.mp hinner)).trans (h.border p hp)
  kept := fun p owner hp => h'.kept p owner (h.kept p owner hp)
  taken := fun p owner hp => by
    rcases h'.taken p owner hp with hp | hp
    · exact h.taken p owner hp
    · exact Or.inr hp

theorem Grows.plain (h : Grows net_id obs obs') (hplain : obs.Plain) : obs'.Plain where
  pads := fun p => by rw [h.pads, hplain.pads]
  pad_conflicts := fun p => by rw [h.pad_conflicts, hplain.pad_conflicts]
  static := h.static.trans hplain.static
  border := fun p hin hinner => by
    have hinner' : ¬ obs.Inner p := fun hp => hinner (h.inner_iff.mpr hp)
    rw [h.border p hinner', hplain.border p (h.inBounds_iff.mp hin) hinner']

end Grows

/-- The net has opened the cell, or another net has it. -/
def Claimed (net_id : String) (obs : ObstacleMap) (p : GridPos) : Prop :=
  (obs.copper p = some net_id ∧ obs.cells p = false) ∨
    ∃ owner, owner ≠ net_id ∧ obs.copper p = some owner

theorem Claimed.grows {net_id : String} {obs obs' : ObstacleMap} {p : GridPos}
    (h : Claimed net_id obs p) (hgrows : Grows net_id obs obs') : Claimed net_id obs' p := by
  rcases h with ⟨howner, hcells⟩ | ⟨owner, hne, howner⟩
  · exact Or.inl ⟨hgrows.kept p net_id howner, hgrows.freed p hcells⟩
  · exact Or.inr ⟨owner, hne, hgrows.kept p owner howner⟩

theorem Claimed.owned {net_id : String} {obs : ObstacleMap} {p : GridPos}
    (h : Claimed net_id obs p) : obs.copper p ≠ none := by
  rcases h with ⟨howner, _⟩ | ⟨owner, _, howner⟩ <;> rw [howner] <;> exact some_ne_none _

/-! ## Around the ends of an edge -/

section Endpoint

variable {net_id : String} {obs : ObstacleMap}

theorem owner_of_mayOpen {pos : GridPos} {owner : String} (h : obs.mayOpen pos net_id)
    (howner : obs.copper pos = some owner) : owner = net_id := by
  simp only [mayOpen, ObstacleMap.owner, howner, Bool.and_eq_true, decide_eq_true_eq] at h
  exact h.2

theorem grows_openForNet {pos : GridPos}
    (hinner : (0 < pos.x ∧ pos.x < obs.width - 1) ∧ 0 < pos.y ∧ pos.y < obs.height - 1) :
    Grows net_id obs (obs.openForNet pos net_id) := by
  by_cases h : obs.mayOpen pos net_id
  · rw [openForNet_of_mayOpen h]
    refine { Grows.refl net_id obs with freed := ?_, border := ?_, kept := ?_, taken := ?_ }
    · intro p hp
      dsimp only
      split
      · rfl
      · exact hp
    · intro p hp
      -- a cell that is opened is inside the board
      have hne : p ≠ pos := by
        rintro rfl
        have hin : obs.inBounds p := by
          simp only [mayOpen, Bool.and_eq_true] at h
          exact h.1.1.1
        exact hp ⟨(ObstacleMap.inBounds_iff.mp hin).1, hinner⟩
      exact if_neg hne
    · intro p owner hp
      dsimp only
      split
      · rename_i heq
        subst heq
        rw [owner_of_mayOpen h hp]
      · exact hp
    · intro p owner hp
      dsimp only at hp
      split at hp
      · exact Or.inr (some.inj hp).symm
      · exact Or.inl hp
  · rw [openForNet_of_not_mayOpen h]
    exact Grows.refl net_id obs

theorem claimed_openForNet (hplain : obs.Plain) {pos : GridPos} (hinner : obs.Inner pos) :
    Claimed net_id (obs.openForNet pos net_id) pos := by
  by_cases h : obs.mayOpen pos net_id
  · rw [openForNet_of_mayOpen h]
    exact Or.inl ⟨if_pos rfl, if_pos rfl⟩
  · rw [openForNet_of_not_mayOpen h]
    simp only [mayOpen, ObstacleMap.owner, hinner.inBounds, hplain.pads, hplain.pad_conflicts,
      Bool.not_false, Bool.true_and] at h
    cases howner : obs.copper pos with
    | none => simp [howner] at h
    | some owner => exact Or.inr ⟨owner, by simpa [howner] using h, howner⟩

/-- One probe of the cells around an end. -/
def probeEndpoint (net_id : String) (obs : ObstacleMap) (probe : GridPos) : ObstacleMap :=
  if (0 < probe.x ∧ probe.x < obs.width - 1) ∧ 0 < probe.y ∧ probe.y < obs.height - 1 then
    obs.openForNet probe net_id
  else obs

theorem grows_probeEndpoint (net_id : String) (obs : ObstacleMap) (probe : GridPos) :
    Grows net_id obs (probeEndpoint net_id obs probe) := by
  unfold probeEndpoint
  split
  · rename_i hinner
    exact grows_openForNet hinner
  · exact Grows.refl net_id obs

theorem grows_probes (probes : List GridPos) :
    Grows net_id obs (probes.foldl (probeEndpoint net_id) obs) :=
  List.foldlRecOn (motive := Grows net_id obs) probes _ (Grows.refl net_id obs)
    fun _ h probe _ => h.trans (grows_probeEndpoint net_id _ probe)

theorem claimed_probes (hplain : obs.Plain) {probes : List GridPos} {p : GridPos}
    (hp : p ∈ probes) (hinner : obs.Inner p) :
    Claimed net_id (probes.foldl (probeEndpoint net_id) obs) p := by
  refine foldl_establishes (I := fun obs : ObstacleMap => obs.Plain ∧ obs.Inner p)
    (P := fun obs => Claimed net_id obs p) hp ⟨hplain, hinner⟩ ?_
    (fun obs probe h => h.grows (grows_probeEndpoint net_id obs probe)) ?_
  · rintro obs probe ⟨hplain, hinner⟩
    have hstep := grows_probeEndpoint net_id obs probe
    exact ⟨hstep.plain hplain, hstep.inner_iff.mpr hinner⟩
  · rintro obs ⟨hplain, hinner⟩
    have hprobe : probeEndpoint net_id obs p = obs.openForNet p net_id := if_pos hinner.2
    rw [hprobe]
    exact claimed_openForNet hplain hinner

theorem grows_unblockEndpoint (net_id : String) (obs : ObstacleMap) (pos : GridPos) (radius : ℤ) :
    Grows net_id obs (unblockEndpoint obs pos radius (some net_id)) := grows_probes _

theorem claimed_unblockEndpoint (hplain : obs.Plain) {pos p : GridPos} {radius : ℤ}
    (hp : p ∈ window pos radius) (hinner : obs.Inner p) :
    Claimed net_id (unblockEndpoint obs pos radius (some net_id)) p := claimed_probes hplain hp hinner

/-- The ends of all the edges of a net. -/
def unblockEndpoints (net_id : String) (layer radius : ℤ) (grid_positions : List (ℤ × ℤ))
    (obs : ObstacleMap) : ObstacleMap :=
  grid_positions.foldl (fun obs g => unblockEndpoint obs ⟨g.1, g.2, layer⟩ radius (some net_id)) obs

theorem grows_unblockEndpoints (net_id : String) (obs : ObstacleMap) (layer radius : ℤ)
    (grid_positions : List (ℤ × ℤ)) :
    Grows net_id obs (unblockEndpoints net_id layer radius grid_positions obs) :=
  List.foldlRecOn (motive := Grows net_id obs) grid_positions _ (Grows.refl net_id obs)
    fun _ h g _ => h.trans (grows_unblockEndpoint net_id _ ⟨g.1, g.2, layer⟩ radius)

theorem claimed_unblockEndpoints (hplain : obs.Plain) {layer radius : ℤ}
    {grid_positions : List (ℤ × ℤ)} {g : ℤ × ℤ} (hg : g ∈ grid_positions) {p : GridPos}
    (hp : p ∈ window ⟨g.1, g.2, layer⟩ radius) (hinner : obs.Inner p) :
    Claimed net_id (unblockEndpoints net_id layer radius grid_positions obs) p := by
  refine foldl_establishes (I := fun obs : ObstacleMap => obs.Plain ∧ obs.Inner p)
    (P := fun obs => Claimed net_id obs p) hg ⟨hplain, hinner⟩ ?_
    (fun obs g h => h.grows (grows_unblockEndpoint net_id obs ⟨g.1, g.2, layer⟩ radius)) ?_
  · rintro obs g ⟨hplain, hinner⟩
    have hstep := grows_unblockEndpoint net_id obs ⟨g.1, g.2, layer⟩ radius
    exact ⟨hstep.plain hplain, hstep.inner_iff.mpr hinner⟩
  · rintro obs ⟨hplain, hinner⟩
    exact claimed_unblockEndpoint hplain hp hinner

/-- An end inside the board that is claimed is used as it is, and then the net has it. -/
theorem resolve_of_claimed (hplain : obs.Plain) {position pos : GridPos} (hinner : obs.Inner position)
    (hclaimed : Claimed net_id obs position)
    (h : resolveAstarEndpoint obs position (some net_id) = some pos) :
    pos = position ∧ obs.copper position = some net_id := by
  unfold resolveAstarEndpoint at h
  rcases hclaimed with ⟨howner, hcells⟩ | ⟨owner, hne, howner⟩
  · have hfree := isFree_of_owner hinner.inBounds hcells (hplain.pads _) (hplain.pad_conflicts _) howner
    rw [if_pos hfree] at h
    exact ⟨(some.inj h).symm, howner⟩
  · have hfree : ¬ obs.isFree position (some net_id) := fun hfree => hne (owner_of_isFree hfree howner)
    have hother : obs.owner position ≠ none ∧ obs.owner position ≠ some net_id := by
      rw [ObstacleMap.owner, howner]
      exact ⟨some_ne_none _, fun heq => hne (some.inj heq)⟩
    rw [if_neg hfree, if_pos hother] at h
    cases h

end Endpoint

/-! ## Along the segments -/

section Segments

variable {net_id : String} {clear_cells : ℤ} {obs obs' : ObstacleMap}

theorem grows_blockLine {p0 p1 : GridPos} {radius : ℤ}
    (h : obs.blockLine p0 p1 radius (some net_id) = Except.ok obs') : Grows net_id obs obs' := by
  obtain ⟨hfree, rfl⟩ := blockLine_ok_iff.mp h
  refine { Grows.refl net_id obs with kept := ?_, taken := ?_ }
  · intro p owner hp
    dsimp only
    split
    · rename_i hmem
      rw [not_isReserved_owner (hfree p hmem) hp]
    · exact hp
  · intro p owner hp
    dsimp only at hp
    split at hp
    · exact Or.inr (some.inj hp).symm
    · exact Or.inl hp

theorem grows_reservePath {segs : List (GridPos × GridPos)}
    (h : reservePath net_id clear_cells segs obs = Except.ok obs') : Grows net_id obs obs' := by
  induction segs generalizing obs with
  | nil =>
    cases h
    exact Grows.refl net_id _
  | cons seg segs ih =>
    obtain ⟨first, second⟩ := seg
    unfold reservePath at h
    split at h
    · cases h
    · rename_i mid hline
      exact (grows_blockLine hline).trans (ih h)

/-- After a path is reserved, the cells within the clearance of a segment are the net's. -/
theorem reserved_of_reservePath {segs : List (GridPos × GridPos)}
    (h : reservePath net_id clear_cells segs obs = Except.ok obs') {p0 p1 c p : GridPos}
    (hseg : (p0, p1) ∈ segs) (hc : c ∈ lineCells p0 p1) (hin : obs.inBounds p)
    (hlayer : p.layer = c.layer) (hp : chebyshev c p ≤ clear_cells) :
    obs'.copper p = some net_id := by
  induction segs generalizing obs with
  | nil => exact absurd hseg List.not_mem_nil
  | cons seg segs ih =>
    obtain ⟨first, second⟩ := seg
    unfold reservePath at h
    split at h
    · cases h
    · rename_i mid hline
      rcases List.mem_cons.mp hseg with heq | hseg
      · obtain ⟨rfl, rfl⟩ := Prod.mk.inj heq
        refine (grows_reservePath h).kept p net_id ?_
        obtain ⟨-, rfl⟩ := blockLine_ok_iff.mp hline
        exact if_pos (mem_reservations.mpr ⟨hin, c, hc, hlayer, hp⟩)
      · exact ih h hseg ((grows_blockLine hline).inBounds_iff.mpr hin)

end Segments

/-! ## A whole net -/

namespace GridRouter

variable {κ : Type} [Zero κ] [One κ] [Add κ] [Sub κ] [Mul κ] [IntCast κ] [LT κ] [DecidableLT κ]
variable {router : GridRouter κ} {kb : KnowledgeBase} {pins : PinGeometry} {design : RoutedDesign}
  {grid_positions : List (ℤ × ℤ)} {layer clear_cells : ℤ} {net_id : String} {obs obs' : ObstacleMap}

/-- An edge that is routed: its path is found on the map of the edges before it and reserved. -/
theorem routeMstPaths_cons {first second : ℕ} {edges : List (ℕ × ℕ)} {paths : List (List GridPos)}
    (h : router.routeMstPaths grid_positions layer clear_cells net_id ((first, second) :: edges) obs =
      some (paths, obs')) :
    ∃ p q path mid rest, grid_positions[first]? = some p ∧ grid_positions[second]? = some q ∧
      router.astar obs ⟨p.1, p.2, layer⟩ ⟨q.1, q.2, layer⟩ (some net_id)
        (if router.pad_aware then clear_cells else 0) = some path ∧
      reservePath net_id clear_cells (segments (simplifyPath path)) obs = Except.ok mid ∧
      router.routeMstPaths grid_positions layer clear_cells net_id edges mid = some (rest, obs') ∧
      paths = simplifyPath path :: rest := by
  unfold routeMstPaths at h
  split at h
  · rename_i p q hp hq
    split at h
    · cases h
    · cases h
    · rename_i cell path hpath
      split at h
      · cases h
      · rename_i mid hmid
        obtain ⟨⟨rest, last⟩, hrest, heq⟩ := map_eq_some_iff.mp h
        obtain ⟨rfl, rfl⟩ := Prod.mk.inj heq
        exact ⟨p, q, cell :: path, mid, rest, hp, hq, hpath, hmid, hrest, rfl⟩
  · cases h

theorem grows_routeMstPaths {edges : List (ℕ × ℕ)} {paths : List (List GridPos)}
    (h : router.routeMstPaths grid_positions layer clear_cells net_id edges obs = some (paths, obs')) :
    Grows net_id obs obs' := by
  induction edges generalizing obs paths with
  | nil =>
    cases h
    exact Grows.refl net_id _
  | cons edge edges ih =>
    obtain ⟨first, second⟩ := edge
    obtain ⟨_, _, _, mid, rest, _, _, _, hmid, hrest, _⟩ := routeMstPaths_cons h
    exact (grows_reservePath hmid).trans (ih hrest)

def gridPositions (router : GridRouter κ) (pins : PinGeometry) (net : Net)
    (context : GridRouteContext) : List (ℤ × ℤ) :=
  (collectNetRoutePoints router pins net context).map fun point => router.toGridPoint point context

theorem planGridNet_of_not_success {net : Net} {context : GridRouteContext}
    (h : (planGridNet router kb pins design net context).1.success = false) :
    (planGridNet router kb pins design net context).2 = context := by
  unfold planGridNet at h ⊢
  dsimp only at h ⊢
  split
  · rfl
  · rename_i hlayer
    rw [if_neg hlayer] at h
    split
    · rfl
    · rename_i hpoints
      rw [if_neg hpoints] at h
      split
      · rfl
      · rename_i l hl
        simp only [hl] at h
        split
        · rfl
        · rename_i paths staged hpaths
          simp only [hpaths] at h
          cases h

/-- The map that the edges of a net are routed on. -/
def stagedMap (router : GridRouter κ) (kb : KnowledgeBase) (pins : PinGeometry) (design : RoutedDesign)
    (net : Net) (context : GridRouteContext) (layer : ℤ) : ObstacleMap :=
  if router.pad_aware then context.obstacles
  else unblockEndpoints net.id layer (clearCells router kb design net.id)
    (gridPositions router pins net context) context.obstacles

/-- A net that is routed: its edges are routed on a copy of the map, which replaces the map. -/
theorem exists_routeMstPaths {net : Net} {context : GridRouteContext}
    (h : (planGridNet router kb pins design net context).1.success = true) :
    0 ≤ layerForNetClass (getNetClass design net.id) context.num_layers ∧
    ∃ layer paths obs',
      planLayer router pins net (layerForNetClass (getNetClass design net.id) context.num_layers)
        (collectNetRoutePoints router pins net context) (gridPositions router pins net context) context =
          some layer ∧
      router.routeMstPaths (gridPositions router pins net context) layer
        (clearCells router kb design net.id) net.id (mst (gridPositions router pins net context))
        (stagedMap router kb pins design net context layer) = some (paths, obs') ∧
      planGridNet router kb pins design net context =
        (⟨true, true, net.id, (kb.getRule (getNetClass design net.id)).trace_width, paths⟩,
          { context with obstacles := obs' }) := by
  have hclear : max (clearCells router kb design net.id) 1 = clearCells router kb design net.id :=
    max_eq_left (le_max_right _ _)
  unfold stagedMap unblockEndpoints gridPositions
  unfold planGridNet at h ⊢
  dsimp only at h ⊢
  rw [hclear] at h ⊢
  split at h
  · cases h
  · rename_i hlayer
    rw [if_neg hlayer]
    split at h
    · cases h
    · rename_i hpoints
      rw [if_neg hpoints]
      split at h
      · cases h
      · rename_i layer hplan
        simp only [hplan]
        split at h
        · cases h
        · rename_i paths staged hpaths
          exact ⟨not_lt.mp hlayer, layer, paths, staged, rfl, hpaths, rfl⟩

/-- A net that is routed without pad copper: its edges are routed after the cells around its grid
positions are opened. -/
theorem planGridNet_of_success (hpad : router.pad_aware = false) {net : Net}
    {context : GridRouteContext}
    (h : (planGridNet router kb pins design net context).1.success = true) :
    ∃ layer paths obs',
      layer = layerForNetClass (getNetClass design net.id) context.num_layers ∧ 0 ≤ layer ∧
      router.routeMstPaths (gridPositions router pins net context) layer
        (clearCells router kb design net.id) net.id (mst (gridPositions router pins net context))
        (unblockEndpoints net.id layer (clearCells router kb design net.id)
          (gridPositions router pins net context) context.obstacles) = some (paths, obs') ∧
      planGridNet router kb pins design net context =
        (⟨true, true, net.id, (kb.getRule (getNetClass design net.id)).trace_width, paths⟩,
          { context with obstacles := obs' }) := by
  obtain ⟨hlayer, layer, paths, obs', hplan, hpaths, heq⟩ := exists_routeMstPaths h
  have hlayer' : layerForNetClass (getNetClass design net.id) context.num_layers = layer := by
    simpa [planLayer, hpad] using hplan
  rw [stagedMap, hpad, if_neg Bool.false_ne_true] at hpaths
  exact ⟨layer, paths, obs', hlayer'.symm, hlayer' ▸ hlayer, hpaths, heq⟩

/-- Planning keeps owners, and a net only takes what no net has. -/
theorem grows_planGridNet (net : Net) (context : GridRouteContext) :
    Grows net.id context.obstacles (planGridNet router kb pins design net context).2.obstacles := by
  cases hsuccess : (planGridNet router kb pins design net context).1.success with
  | false =>
    rw [planGridNet_of_not_success hsuccess]
    exact Grows.refl net.id _
  | true =>
    obtain ⟨-, layer, paths, obs', -, hpaths, heq⟩ := exists_routeMstPaths hsuccess
    have hstaged : Grows net.id context.obstacles (stagedMap router kb pins design net context layer) := by
      unfold stagedMap
      split
      · exact Grows.refl net.id _
      · exact grows_unblockEndpoints net.id _ layer _ _
    rw [heq]
    exact hstaged.trans (grows_routeMstPaths hpaths)

end GridRouter

end ZapTrace
