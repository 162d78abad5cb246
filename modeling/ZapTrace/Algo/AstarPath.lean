import ZapTrace.Algo.GridRouter
import Mathlib.Data.List.Chain

/-!
# The paths of the search

A path that A* returns leads from the resolved start to the resolved goal by the moves of the search:
planar steps whose corridors are free, and changes of the layer to a free cell. Every cell of it is
free for the net.

Simplification keeps the first and the last cell of a path. Two cells that are next to each other in
what is left are on one layer, or one above the other: a cell is dropped only where the path stays on
its layer.

## Main results

* `GridRouter.astar_sound`: a path that is returned
* `mem_of_mem_simplifyPath`, `simplifyPath_isChain`: what simplification keeps
-/

namespace ZapTrace

open GridRouter List

/-! ## Moves -/

/-- The moves of the search: a planar step with free corridors, or a change to an adjacent layer where
the cell is free. -/
def IsMove (obs : ObstacleMap) (net_id : Option String) (clear_cells : ℤ) (pad_aware : Bool)
    (p q : GridPos) : Prop :=
  (∃ d ∈ directions8, q = p.move d ∧ obs.isStepFree p d net_id clear_cells) ∨
    (pad_aware = false ∧
      (q = ⟨p.x, p.y, p.layer - 1⟩ ∨ q = ⟨p.x, p.y, p.layer + 1⟩) ∧
      (0 ≤ q.layer ∧ q.layer < obs.layers) ∧ obs.isFree q net_id)

section Moves

variable {obs : ObstacleMap} {net_id : Option String} {clear_cells : ℤ} {pad_aware : Bool}

theorem isFree_of_isCorridorFree {pos : GridPos} (h : obs.isCorridorFree pos net_id clear_cells) :
    obs.isFree pos net_id := by
  simp only [ObstacleMap.isCorridorFree, Bool.and_eq_true, decide_eq_true_eq, all_eq_true] at h
  refine h.2 pos (mem_window.mpr ⟨rfl, ?_⟩)
  simpa [chebyshev] using h.1

theorem IsMove.isFree {p q : GridPos} (h : IsMove obs net_id clear_cells pad_aware p q) :
    obs.isFree q net_id := by
  rcases h with ⟨d, _, rfl, hfree⟩ | ⟨_, _, _, hfree⟩
  · simp only [ObstacleMap.isStepFree, Bool.and_eq_true] at hfree
    exact isFree_of_isCorridorFree hfree.1
  · exact hfree

theorem isFree_of_isChain {path : List GridPos}
    (hchain : path.IsChain (IsMove obs net_id clear_cells pad_aware))
    (hhead : ∀ s, path.head? = some s → obs.isFree s net_id) :
    ∀ c ∈ path, obs.isFree c net_id := by
  induction path with
  | nil => exact fun c hc => absurd hc not_mem_nil
  | cons p path ih =>
    intro c hc
    rcases mem_cons.mp hc with rfl | hc
    · exact hhead c rfl
    · refine ih hchain.tail ?_ c hc
      intro s hs
      cases path with
      | nil => cases hs
      | cons q path =>
        cases hs
        exact (isChain_cons_cons.mp hchain).1.isFree

end Moves

/-! ## Ends of a path -/

theorem isFree_of_nearestFreeFrom {obs : ObstacleMap} {max_radius : ℤ} {net_id : Option String}
    {fuel : ℕ} {q : List (GridPos × ℤ)} {visited : List GridPos} {pos : GridPos}
    (h : nearestFreeFrom obs max_radius net_id fuel q visited = some pos) :
    obs.isFree pos net_id := by
  induction fuel generalizing q visited with
  | zero => cases h
  | succ fuel ih =>
    cases q with
    | nil => cases h
    | cons entry q =>
      obtain ⟨current, dist⟩ := entry
      unfold nearestFreeFrom at h
      split at h
      · rename_i hfree
        cases h
        exact hfree
      · split at h
        · exact ih h
        · exact ih h

theorem isFree_of_resolve {obs : ObstacleMap} {position pos : GridPos} {net_id : Option String}
    (h : resolveAstarEndpoint obs position net_id = some pos) : obs.isFree pos net_id := by
  unfold resolveAstarEndpoint at h
  split at h
  · rename_i hfree
    cases h
    exact hfree
  · split at h
    · cases h
    · exact isFree_of_nearestFreeFrom h

/-! ## The search -/

section Search

variable {κ : Type} [Zero κ] [One κ] [Add κ] [Sub κ] [Mul κ] [IntCast κ] [LT κ] [DecidableLT κ]
variable {router : GridRouter κ} {obs : ObstacleMap} {net_id : Option String} {clear_cells : ℤ}
  {start goal : GridPos}

/-- The positions up the chain of parents go back to the start by moves. -/
structure Node.Trail (router : GridRouter κ) (obs : ObstacleMap) (net_id : Option String)
    (clear_cells : ℤ) (start : GridPos) (node : Node κ) : Prop where
  moves : (node.pos :: node.parents).IsChain
    fun q p => IsMove obs net_id clear_cells router.pad_aware p q
  start_eq : (node.pos :: node.parents).getLast? = some start

omit [Zero κ] [LT κ] [DecidableLT κ] in
theorem Node.trail_child {current : Node κ} {position : GridPos} {cost : κ}
    (h : current.Trail router obs net_id clear_cells start)
    (hmove : IsMove obs net_id clear_cells router.pad_aware current.pos position) :
    (router.child current goal position cost).Trail router obs net_id clear_cells start :=
  ⟨isChain_cons_cons.mpr ⟨hmove, h.moves⟩, by
    simpa [child] using h.start_eq⟩

omit [Zero κ] [One κ] [Add κ] [Sub κ] [Mul κ] [IntCast κ] in
theorem forall_push {P : Node κ → Prop} {open_set : List (Node κ)} {node : Node κ}
    (h : ∀ n ∈ open_set, P n) (hnode : P node) : ∀ n ∈ Heap.push Node.lt open_set node, P n := by
  intro n hn
  rcases (Heap.mem_push _).mp hn with rfl | hn
  · exact hnode
  · exact h n hn

theorem trail_pushPlanarNeighbors (goal : GridPos) {open_set : List (Node κ)} (closed : List GridPos)
    {current : Node κ} (hcur : current.Trail router obs net_id clear_cells start)
    (h : ∀ n ∈ open_set, n.Trail router obs net_id clear_cells start) :
    ∀ n ∈ router.pushPlanarNeighbors open_set closed obs current goal net_id clear_cells,
      n.Trail router obs net_id clear_cells start := by
  refine foldlRecOn
    (motive := fun l => ∀ n ∈ l, Node.Trail router obs net_id clear_cells start n) directions8 _ h ?_
  intro l hl d hd
  split
  · exact hl
  · rename_i hfree
    split
    · exact hl
    · exact forall_push hl (Node.trail_child hcur (Or.inl ⟨d, hd, rfl, not_not.mp hfree⟩))

omit [Zero κ] in
theorem trail_pushViaNeighbors (hpad : router.pad_aware = false) {open_set : List (Node κ)}
    {closed : List GridPos} {current : Node κ}
    (hcur : current.Trail router obs net_id clear_cells start)
    (h : ∀ n ∈ open_set, n.Trail router obs net_id clear_cells start) :
    ∀ n ∈ router.pushViaNeighbors open_set closed obs current goal net_id,
      n.Trail router obs net_id clear_cells start := by
  refine foldlRecOn
    (motive := fun l => ∀ n ∈ l, Node.Trail router obs net_id clear_cells start n) [-1, 1] _ h ?_
  intro l hl layer_delta hd
  dsimp only
  split
  · exact hl
  · rename_i hlayer
    split
    · exact hl
    · rename_i hfree
      split
      · exact hl
      · refine forall_push hl (Node.trail_child hcur (Or.inr ⟨hpad, ?_, not_not.mp hlayer,
          not_not.mp hfree⟩))
        simp only [mem_cons, not_mem_nil, or_false] at hd
        rcases hd with rfl | rfl
        · exact Or.inl rfl
        · exact Or.inr rfl

/-- The loop returns a chain of moves from the start to the goal. -/
theorem searchFrom_sound {iterations : ℕ} {open_set : List (Node κ)} {closed path : List GridPos}
    (hopen : ∀ n ∈ open_set, n.Trail router obs net_id clear_cells start)
    (h : router.searchFrom obs goal net_id clear_cells iterations open_set closed = some path) :
    path.IsChain (IsMove obs net_id clear_cells router.pad_aware) ∧
      path.head? = some start ∧ path.getLast? = some goal := by
  induction iterations generalizing open_set closed with
  | zero => cases h
  | succ iterations ih =>
    unfold searchFrom at h
    split at h
    · cases h
    · rename_i current rest hpop
      have hcur : current.Trail router obs net_id clear_cells start :=
        hopen _ ((Heap.mem_of_pop _ hpop).mpr (Or.inl rfl))
      have hrest : ∀ n ∈ rest, n.Trail router obs net_id clear_cells start :=
        fun n hn => hopen n ((Heap.mem_of_pop _ hpop).mpr (Or.inr hn))
      split at h
      · exact ih hrest h
      · split at h
        · rename_i hgoal
          obtain rfl := Option.some.inj h
          refine ⟨isChain_reverse.mpr hcur.moves, ?_, ?_⟩
          · rw [Node.reconstruct, head?_reverse]
            exact hcur.start_eq
          · rw [Node.reconstruct, getLast?_reverse, head?_cons, hgoal]
        · refine ih ?_ h
          have hplanar := trail_pushPlanarNeighbors goal (current.pos :: closed) hcur hrest
          split
          · exact hplanar
          · rename_i hpad
            exact trail_pushViaNeighbors (Bool.not_eq_true _ ▸ hpad) hcur hplanar

/-- **Soundness of the search**: a path leads from the resolved start to the resolved goal by moves. -/
theorem GridRouter.astar_sound {path : List GridPos}
    (h : router.astar obs start goal net_id clear_cells = some path) :
    ∃ resolved_start resolved_goal,
      resolveAstarEndpoint obs start net_id = some resolved_start ∧
      resolveAstarEndpoint obs goal net_id = some resolved_goal ∧
      path.IsChain (IsMove obs net_id clear_cells router.pad_aware) ∧
      path.head? = some resolved_start ∧ path.getLast? = some resolved_goal := by
  unfold astar at h
  split at h
  · cases h
  · obtain ⟨resolved_start, hstart, h⟩ := Option.bind_eq_some_iff.mp h
    obtain ⟨resolved_goal, hgoal, h⟩ := Option.bind_eq_some_iff.mp h
    refine ⟨resolved_start, resolved_goal, hstart, hgoal, searchFrom_sound ?_ h⟩
    refine forall_push (fun n hn => absurd hn not_mem_nil) ?_
    exact ⟨isChain_singleton _, rfl⟩

theorem GridRouter.isFree_of_astar {path : List GridPos}
    (h : router.astar obs start goal net_id clear_cells = some path) :
    ∀ c ∈ path, obs.isFree c net_id := by
  obtain ⟨s, g, hs, -, hchain, hhead, -⟩ := astar_sound h
  refine isFree_of_isChain hchain ?_
  intro c hc
  obtain rfl : s = c := Option.some.inj (hhead.symm.trans hc)
  exact isFree_of_resolve hs

/-- The path from a position to itself is that position. -/
theorem GridRouter.astar_self {path : List GridPos}
    (h : router.astar obs start start net_id clear_cells = some path) : path.length = 1 := by
  unfold astar at h
  split at h
  · cases h
  · obtain ⟨s, hs, h⟩ := Option.bind_eq_some_iff.mp h
    obtain ⟨s', hs', h⟩ := Option.bind_eq_some_iff.mp h
    obtain rfl : s = s' := Option.some.inj (hs.symm.trans hs')
    cases hiter : router.max_iterations.toNat with
    | zero =>
      rw [hiter] at h
      cases h
    | succ iterations =>
      -- the first node the search takes is the start, which is the goal
      rw [hiter, searchFrom] at h
      have hpush : Heap.push Node.lt [] (router.startNode s s) = [router.startNode s s] := rfl
      rw [hpush] at h
      simp only [Heap.pop, startNode, not_mem_nil, if_false, if_true] at h
      cases h
      rfl

end Search

/-! ## Simplification -/

def Aligned (p q : GridPos) : Prop := p.layer = q.layer ∨ (p.x = q.x ∧ p.y = q.y)

theorem IsMove.aligned {obs : ObstacleMap} {net_id : Option String} {clear_cells : ℤ}
    {pad_aware : Bool} {p q : GridPos} (h : IsMove obs net_id clear_cells pad_aware p q) :
    Aligned p q := by
  rcases h with ⟨d, _, rfl, _⟩ | ⟨_, rfl | rfl, _⟩
  · exact Or.inl rfl
  · exact Or.inr ⟨rfl, rfl⟩
  · exact Or.inr ⟨rfl, rfl⟩

theorem simplifyPath_cons_cons (first second : GridPos) (rest : List GridPos) :
    simplifyPath (first :: second :: rest) =
      first :: innerCorners (first :: second :: rest) ++
        [(second :: rest).getLast (cons_ne_nil _ _)] := by
  cases rest with
  | nil => rfl
  | cons third rest =>
    simp [simplifyPath, getLast?_eq_some_getLast (cons_ne_nil third rest)]

theorem head?_simplifyPath (path : List GridPos) : (simplifyPath path).head? = path.head? := by
  match path with
  | [] => rfl
  | [_] => rfl
  | first :: second :: rest => rw [simplifyPath_cons_cons, cons_append, head?_cons, head?_cons]

theorem getLast?_simplifyPath (path : List GridPos) :
    (simplifyPath path).getLast? = path.getLast? := by
  match path with
  | [] => rfl
  | [_] => rfl
  | first :: second :: rest =>
    rw [simplifyPath_cons_cons, getLast?_concat, getLast?_cons_cons,
      getLast?_eq_some_getLast (cons_ne_nil _ _)]

theorem innerCorners_subset (path : List GridPos) : ∀ c ∈ innerCorners path, c ∈ path := by
  fun_induction innerCorners path with
  | case1 prev cur nxt rest h ih => exact fun c hc => mem_cons_of_mem prev (ih c hc)
  | case2 prev cur nxt rest h ih =>
    intro c hc
    rcases mem_cons.mp hc with rfl | hc
    · exact mem_cons_of_mem prev mem_cons_self
    · exact mem_cons_of_mem prev (ih c hc)
  | case3 => exact fun c hc => absurd hc not_mem_nil

theorem mem_of_mem_simplifyPath {path : List GridPos} {c : GridPos} (hc : c ∈ simplifyPath path) :
    c ∈ path := by
  match path, hc with
  | [], hc => exact hc
  | [_], hc => exact hc
  | first :: second :: rest, hc =>
    rw [simplifyPath_cons_cons] at hc
    rcases mem_cons.mp hc with rfl | hc
    · exact mem_cons_self
    · rcases mem_append.mp hc with hc | hc
      · exact innerCorners_subset _ c hc
      · rw [mem_singleton.mp hc]
        exact mem_cons_of_mem _ (getLast_mem _)

/-- The corners of the rest of a path stay aligned after a cell that was kept: either that cell is the
one before, or the path has stayed on its layer since. -/
theorem isChain_innerCorners {kept prev cur : GridPos} {rest : List GridPos}
    (hkept : kept = prev ∨ (kept.layer = prev.layer ∧ prev.layer = cur.layer))
    (hchain : (prev :: cur :: rest).IsChain Aligned) :
    (kept :: innerCorners (prev :: cur :: rest) ++
      [(cur :: rest).getLast (cons_ne_nil _ _)]).IsChain Aligned := by
  have hcur : Aligned kept cur := by
    rcases hkept with rfl | ⟨hlayer, hlayer'⟩
    · exact (isChain_cons_cons.mp hchain).1
    · exact Or.inl (hlayer.trans hlayer')
  induction rest generalizing kept prev cur with
  | nil => simpa [innerCorners] using hcur
  | cons nxt rest ih =>
    have htail : (cur :: nxt :: rest).IsChain Aligned := hchain.tail
    rw [getLast_cons (cons_ne_nil _ _)]
    unfold innerCorners
    split
    · rename_i hcol
      simp only [isCollinear, decide_eq_true_eq] at hcol
      obtain ⟨hpc, hpn, -⟩ := hcol
      refine ih (Or.inr ⟨?_, hpc.trans hpn⟩) htail ?_
      · rcases hkept with rfl | ⟨hlayer, -⟩
        · exact hpc.symm
        · exact hlayer.trans hpc.symm
      · rcases hkept with rfl | ⟨hlayer, -⟩
        · exact Or.inl hpn
        · exact Or.inl (hlayer.trans hpn)
    · exact isChain_cons_cons.mpr
        ⟨hcur, ih (Or.inl rfl) htail (isChain_cons_cons.mp htail).1⟩

theorem simplifyPath_isChain {path : List GridPos} (hchain : path.IsChain Aligned) :
    (simplifyPath path).IsChain Aligned := by
  match path with
  | [] => exact List.IsChain.nil
  | [_] => exact List.IsChain.singleton _
  | first :: second :: rest =>
    rw [simplifyPath_cons_cons]
    exact isChain_innerCorners (Or.inl rfl) hchain

end ZapTrace
