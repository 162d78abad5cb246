import Mathlib.Data.Finset.Prod
import Mathlib.Data.Int.Interval
import ZapTrace.Algo.AstarPath
import ZapTrace.Library.BestFirst

/-!
# The search is complete

A node that is taken from the heap is thrown away when its cell is closed; otherwise its cell is closed and the nodes of
its moves to cells that are not closed are opened. There are ten moves at most, and every cell is closed once at most,
so the heap is empty after ten iterations for each cell and one more. Then every cell that moves lead to is closed.

## Main results

* `GridRouter.mem_expand_iff`: what is opened
* `GridRouter.searchFrom_complete`: a search that ends without a path
* `GridRouter.astar_complete`: a search with enough iterations finds a path when there is one
-/

set_option linter.unusedSectionVars false

namespace ZapTrace

open BestFirst ObstacleMap Node Heap List

variable {κ : Type} [Zero κ] [One κ] [Add κ] [Sub κ] [Mul κ] [IntCast κ] [LT κ] [DecidableLT κ]
variable {router : GridRouter κ} {obs : ObstacleMap} {net_id : Option String} {clear_cells : ℤ}
  {start goal : GridPos}

/-! ## Loops that push -/

section Push

variable {β : Type} {items : List β} {push? : List (Node κ) → β → List (Node κ)} {opens : β → Prop} {node : β → Node κ}

omit [Zero κ] [One κ] [Add κ] [Sub κ] [Mul κ] [IntCast κ] in
theorem mem_foldl_push (hpush : ∀ open_set b, (opens b ∧ push? open_set b = push lt open_set (node b)) ∨
      (¬ opens b ∧ push? open_set b = open_set)) (open_set : List (Node κ)) (n : Node κ) :
    n ∈ items.foldl push? open_set ↔ n ∈ open_set ∨ ∃ b ∈ items, opens b ∧ n = node b := by
  induction items generalizing open_set with
  | nil => simp
  | cons b items ih =>
    rw [foldl_cons, ih, exists_mem_cons_iff]
    rcases hpush open_set b with ⟨hopen, heq⟩ | ⟨hopen, heq⟩
    · rw [heq, mem_push]
      simp only [hopen, true_and]
      tauto
    · rw [heq]
      simp only [hopen, false_and, false_or]

omit [Zero κ] [One κ] [Add κ] [Sub κ] [Mul κ] [IntCast κ] in
theorem length_foldl_push (hpush : ∀ open_set b, (opens b ∧ push? open_set b = push lt open_set (node b)) ∨
      (¬ opens b ∧ push? open_set b = open_set)) (open_set : List (Node κ)) :
    (items.foldl push? open_set).length ≤ open_set.length + items.length := by
  induction items generalizing open_set with
  | nil => simp
  | cons b items ih =>
    rw [foldl_cons, length_cons]
    refine (ih _).trans ?_
    rcases hpush open_set b with ⟨_, heq⟩ | ⟨_, heq⟩
    · rw [heq, (push_perm lt open_set (node b)).length_eq, length_cons]
      omega
    · rw [heq]
      omega

end Push

/-! ## The moves from a node -/

namespace GridRouter

def planarChild (router : GridRouter κ) (goal : GridPos) (n : Node κ) (d : ℤ × ℤ) : Node κ :=
  router.child n goal (n.pos.move d)
    (n.g + router.moveCost d + if d ≠ n.previousDirection then router.turn_penalty else 0)

def viaChild (router : GridRouter κ) (goal : GridPos) (n : Node κ) (layer_delta : ℤ) : Node κ :=
  router.child n goal ⟨n.pos.x, n.pos.y, n.pos.layer + layer_delta⟩ (n.g + router.via_cost)

/-- The layer next to that of a position exists, and its cell is free. -/
def ViaFree (obs : ObstacleMap) (net_id : Option String) (pos : GridPos) (layer_delta : ℤ) : Prop :=
  (0 ≤ pos.layer + layer_delta ∧ pos.layer + layer_delta < obs.layers) ∧
    obs.isFree ⟨pos.x, pos.y, pos.layer + layer_delta⟩ net_id = true

/-- The nodes of the moves from a node. -/
inductive IsChild (router : GridRouter κ) (obs : ObstacleMap) (net_id : Option String) (clear_cells : ℤ)
    (goal : GridPos) (n : Node κ) : Node κ → Prop
  | planar {d : ℤ × ℤ} (mem : d ∈ directions8) (free : obs.isStepFree n.pos d net_id clear_cells = true) :
      IsChild router obs net_id clear_cells goal n (router.planarChild goal n d)
  | via {layer_delta : ℤ} (mem : layer_delta ∈ [-1, 1]) (pad : router.pad_aware = false)
      (free : ViaFree obs net_id n.pos layer_delta) :
      IsChild router obs net_id clear_cells goal n (router.viaChild goal n layer_delta)

def expand (router : GridRouter κ) (open_set : List (Node κ)) (closed : List GridPos) (obs : ObstacleMap)
    (current : Node κ) (goal : GridPos) (net_id : Option String) (clear_cells : ℤ) : List (Node κ) :=
  if router.pad_aware then router.pushPlanarNeighbors open_set closed obs current goal net_id clear_cells
  else
    router.pushViaNeighbors (router.pushPlanarNeighbors open_set closed obs current goal net_id clear_cells) closed obs
      current goal net_id

theorem IsChild.isMove {n n' : Node κ} (h : IsChild router obs net_id clear_cells goal n n') :
    IsMove obs net_id clear_cells router.pad_aware n.pos n'.pos := by
  cases h with
  | planar mem free => exact .inl ⟨_, mem, rfl, free⟩
  | @via layer_delta mem pad free =>
    refine .inr ⟨pad, ?_, free.1, free.2⟩
    rcases mem_cons.mp mem with rfl | mem
    · exact .inl rfl
    · exact .inr (mem_singleton.mp mem ▸ rfl)

theorem exists_isChild (goal : GridPos) {n : Node κ} {q : GridPos}
    (h : IsMove obs net_id clear_cells router.pad_aware n.pos q) :
    ∃ n', IsChild router obs net_id clear_cells goal n n' ∧ n'.pos = q := by
  rcases h with ⟨d, hd, rfl, hfree⟩ | ⟨hpad, rfl | rfl, hlayer, hfree⟩
  · exact ⟨_, .planar hd hfree, rfl⟩
  · exact ⟨_, .via (by simp) hpad ⟨hlayer, hfree⟩, rfl⟩
  · exact ⟨_, .via (by simp) hpad ⟨hlayer, hfree⟩, rfl⟩

theorem pushPlanar_cases (router : GridRouter κ) (goal : GridPos) (closed : List GridPos) (current : Node κ)
    (open_set : List (Node κ)) (d : ℤ × ℤ) :
    let pushed := if ¬ obs.isStepFree current.pos d net_id clear_cells then open_set
      else if current.pos.move d ∈ closed then open_set
      else push lt open_set (router.planarChild goal current d)
    ((obs.isStepFree current.pos d net_id clear_cells = true ∧ current.pos.move d ∉ closed) ∧
        pushed = push lt open_set (router.planarChild goal current d)) ∨
      (¬ (obs.isStepFree current.pos d net_id clear_cells = true ∧ current.pos.move d ∉ closed) ∧
        pushed = open_set) := by
  intro pushed
  by_cases hfree : obs.isStepFree current.pos d net_id clear_cells = true
  · by_cases hclosed : current.pos.move d ∈ closed
    · exact .inr ⟨fun h => h.2 hclosed, by simp [pushed, hfree, hclosed]⟩
    · exact .inl ⟨⟨hfree, hclosed⟩, by simp [pushed, hfree, hclosed]⟩
  · exact .inr ⟨fun h => hfree h.1, by simp [pushed, hfree]⟩

theorem pushVia_cases (router : GridRouter κ) (goal : GridPos) (closed : List GridPos) (current : Node κ)
    (open_set : List (Node κ)) (layer_delta : ℤ) :
    let position : GridPos := ⟨current.pos.x, current.pos.y, current.pos.layer + layer_delta⟩
    let pushed := if ¬ (0 ≤ position.layer ∧ position.layer < obs.layers) then open_set
      else if ¬ obs.isFree position net_id then open_set
      else if position ∈ closed then open_set
      else push lt open_set (router.viaChild goal current layer_delta)
    ((ViaFree obs net_id current.pos layer_delta ∧ position ∉ closed) ∧
        pushed = push lt open_set (router.viaChild goal current layer_delta)) ∨
      (¬ (ViaFree obs net_id current.pos layer_delta ∧ position ∉ closed) ∧ pushed = open_set) := by
  intro position pushed
  by_cases hlayer : 0 ≤ position.layer ∧ position.layer < obs.layers
  · by_cases hfree : obs.isFree position net_id = true
    · by_cases hclosed : position ∈ closed
      · exact .inr ⟨fun h => h.2 hclosed, by simp [pushed, hlayer, hfree, hclosed]⟩
      · exact .inl ⟨⟨⟨hlayer, hfree⟩, hclosed⟩, by simp [pushed, hlayer, hfree, hclosed]⟩
    · exact .inr ⟨fun h => hfree h.1.2, by simp [pushed, hlayer, hfree]⟩
  · exact .inr ⟨fun h => hlayer h.1.1, if_pos hlayer⟩

variable {closed : List GridPos}

/-- **What is opened**: the nodes of the moves to cells that are not closed. -/
theorem mem_expand_iff {open_set : List (Node κ)} {current n : Node κ} :
    n ∈ router.expand open_set closed obs current goal net_id clear_cells ↔
      n ∈ open_set ∨ (IsChild router obs net_id clear_cells goal current n ∧ n.pos ∉ closed) := by
  have hplanar : n ∈ router.pushPlanarNeighbors open_set closed obs current goal net_id clear_cells ↔
      n ∈ open_set ∨ ∃ d ∈ directions8,
        (obs.isStepFree current.pos d net_id clear_cells = true ∧ current.pos.move d ∉ closed) ∧
          n = router.planarChild goal current d :=
    mem_foldl_push (pushPlanar_cases router goal closed current) open_set n
  have hvia : n ∈ router.pushViaNeighbors
        (router.pushPlanarNeighbors open_set closed obs current goal net_id clear_cells) closed obs current goal
        net_id ↔
      n ∈ router.pushPlanarNeighbors open_set closed obs current goal net_id clear_cells ∨ ∃ layer_delta ∈ [-1, 1],
        (ViaFree obs net_id current.pos layer_delta ∧
          (⟨current.pos.x, current.pos.y, current.pos.layer + layer_delta⟩ : GridPos) ∉ closed) ∧
            n = router.viaChild goal current layer_delta :=
    mem_foldl_push (pushVia_cases router goal closed current) _ n
  unfold expand
  cases hpad : router.pad_aware with
  | true =>
    rw [if_pos rfl, hplanar]
    apply or_congr_right
    constructor
    · rintro ⟨d, hd, ⟨hfree, hclosed⟩, rfl⟩
      exact ⟨.planar hd hfree, hclosed⟩
    · rintro ⟨hchild, hclosed⟩
      cases hchild with
      | planar mem free => exact ⟨_, mem, ⟨free, hclosed⟩, rfl⟩
      | via mem pad free =>
        rw [hpad] at pad
        cases pad
  | false =>
    rw [if_neg (by simp), hvia, hplanar, or_assoc]
    apply or_congr_right
    constructor
    · rintro (⟨d, hd, ⟨hfree, hclosed⟩, rfl⟩ | ⟨layer_delta, hmem, ⟨hfree, hclosed⟩, rfl⟩)
      · exact ⟨.planar hd hfree, hclosed⟩
      · exact ⟨.via hmem hpad hfree, hclosed⟩
    · rintro ⟨hchild, hclosed⟩
      cases hchild with
      | planar mem free => exact .inl ⟨_, mem, ⟨free, hclosed⟩, rfl⟩
      | via mem pad free => exact .inr ⟨_, mem, ⟨free, hclosed⟩, rfl⟩

theorem length_expand_le (router : GridRouter κ) (obs : ObstacleMap) (goal : GridPos) (net_id : Option String)
    (clear_cells : ℤ) (open_set : List (Node κ)) (closed : List GridPos) (current : Node κ) :
    (router.expand open_set closed obs current goal net_id clear_cells).length ≤ open_set.length + 10 := by
  have hplanar : (router.pushPlanarNeighbors open_set closed obs current goal net_id clear_cells).length ≤
      open_set.length + 8 := length_foldl_push (pushPlanar_cases router goal closed current) open_set
  have hvia : (router.pushViaNeighbors
        (router.pushPlanarNeighbors open_set closed obs current goal net_id clear_cells) closed obs current goal
        net_id).length ≤
      (router.pushPlanarNeighbors open_set closed obs current goal net_id clear_cells).length + 2 :=
    length_foldl_push (pushVia_cases router goal closed current) _
  unfold expand
  split <;> omega

/-! ## Completeness -/

/-- How many cells there are. -/
def cellCount (obs : ObstacleMap) : ℕ := (obs.width * obs.height * obs.layers).toNat

theorem length_le_cellCount {cells : List GridPos} (hnodup : cells.Nodup)
    (hin : ∀ c ∈ cells, obs.inBounds c = true) : cells.length ≤ cellCount obs := by
  have hinj : Function.Injective fun c : GridPos => (c.x, c.y, c.layer) := by
    rintro ⟨x, y, layer⟩ ⟨x', y', layer'⟩ h
    simp only [Prod.mk.injEq] at h
    obtain ⟨rfl, rfl, rfl⟩ := h
    rfl
  have hsub : (cells.map fun c => (c.x, c.y, c.layer)).toFinset ⊆
      Finset.Ico 0 obs.width ×ˢ Finset.Ico 0 obs.height ×ˢ Finset.Ico 0 obs.layers := by
    intro t ht
    obtain ⟨c, hc, rfl⟩ := mem_map.mp (mem_toFinset.mp ht)
    obtain ⟨hlayer, hx, hy⟩ := inBounds_iff.mp (hin c hc)
    simp only [Finset.mem_product, Finset.mem_Ico]
    exact ⟨hx, hy, hlayer⟩
  have hcard := Finset.card_le_card hsub
  rw [toFinset_card_of_nodup (hnodup.map hinj), length_map, Finset.card_product, Finset.card_product,
    Int.card_Ico, Int.card_Ico, Int.card_Ico, sub_zero, sub_zero, sub_zero] at hcard
  cases cells with
  | nil => exact Nat.zero_le _
  | cons c cells =>
    obtain ⟨hlayer, hx, hy⟩ := inBounds_iff.mp (hin c mem_cons_self)
    have hwidth : 0 ≤ obs.width := by omega
    have hheight : 0 ≤ obs.height := by omega
    rw [cellCount, mul_assoc, Int.toNat_mul hwidth (mul_nonneg hheight (by omega)), Int.toNat_mul hheight (by omega)]
    exact hcard

/-- What holds of the heap and the closed cells whenever a node is taken. -/
structure Searching (obs : ObstacleMap) (net_id : Option String) (clear_cells : ℤ) (pad_aware : Bool)
    (start goal : GridPos) (open_set : List (Node κ)) (closed : List GridPos) : Prop where
  covered : Covered (IsMove obs net_id clear_cells pad_aware) Eq start (open_set.map pos) closed
  nodup : closed.Nodup
  opened_in : ∀ n ∈ open_set, obs.inBounds n.pos = true
  closed_in : ∀ c ∈ closed, obs.inBounds c = true
  goal_open : goal ∉ closed

theorem dominance_eq {Child : GridPos → GridPos → Prop} : Dominance Child Eq where
  refl := fun _ => rfl
  trans := fun h h' => h.trans h'
  child := fun h hchild => ⟨_, h ▸ hchild, rfl⟩

theorem Searching.skip {open_set rest : List (Node κ)} {current : Node κ}
    (h : Searching obs net_id clear_cells router.pad_aware start goal open_set closed)
    (hpop : ∀ n, n ∈ open_set ↔ n = current ∨ n ∈ rest) (hclosed : current.pos ∈ closed) :
    Searching obs net_id clear_cells router.pad_aware start goal rest closed where
  covered := by
    refine h.covered.skip dominance_eq (fun p hp => ?_) ⟨current.pos, hclosed, rfl⟩
    obtain ⟨n, hn, rfl⟩ := mem_map.mp hp
    exact ((hpop n).mp hn).imp (congrArg pos) mem_map_of_mem
  nodup := h.nodup
  opened_in := fun n hn => h.opened_in n ((hpop n).mpr (.inr hn))
  closed_in := h.closed_in
  goal_open := h.goal_open

theorem Searching.expand {open_set rest : List (Node κ)} {current : Node κ}
    (h : Searching obs net_id clear_cells router.pad_aware start goal open_set closed)
    (hpop : ∀ n, n ∈ open_set ↔ n = current ∨ n ∈ rest) (hclosed : current.pos ∉ closed) (hgoal : current.pos ≠ goal) :
    Searching obs net_id clear_cells router.pad_aware start goal
      (router.expand rest (current.pos :: closed) obs current goal net_id clear_cells) (current.pos :: closed) where
  covered := by
    have hpop' : ∀ p, p ∈ open_set.map pos → p = current.pos ∨ p ∈ rest.map pos := by
      intro p hp
      obtain ⟨n, hn, rfl⟩ := mem_map.mp hp
      exact ((hpop n).mp hn).imp (congrArg pos) mem_map_of_mem
    refine h.covered.expand dominance_eq hpop' (fun p hp => ?_) fun q hmove => ?_
    · obtain ⟨n, hn, rfl⟩ := mem_map.mp hp
      exact mem_map_of_mem (mem_expand_iff.mpr (.inl hn))
    · refine ⟨q, mem_append.mpr ?_, rfl⟩
      by_cases hq : q ∈ current.pos :: closed
      · exact .inr hq
      · obtain ⟨n, hchild, rfl⟩ := exists_isChild goal hmove
        exact .inl (mem_map_of_mem (mem_expand_iff.mpr (.inr ⟨hchild, hq⟩)))
  nodup := nodup_cons.mpr ⟨hclosed, h.nodup⟩
  opened_in := by
    intro n hn
    rcases mem_expand_iff.mp hn with hn | ⟨hchild, _⟩
    · exact h.opened_in n ((hpop n).mpr (.inr hn))
    · exact inBounds_of_isFree hchild.isMove.isFree
  closed_in := by
    intro c hc
    rcases mem_cons.mp hc with rfl | hc
    · exact h.opened_in current ((hpop current).mpr (.inl rfl))
    · exact h.closed_in c hc
  goal_open := by
    intro hmem
    rcases mem_cons.mp hmem with heq | hmem
    · exact hgoal heq.symm
    · exact h.goal_open hmem

/-- **A search that ends without a path**, when there are ten iterations left for each cell that is not closed and one
for each node in the heap: no moves lead to the goal. -/
theorem searchFrom_complete {iterations : ℕ} {open_set : List (Node κ)}
    (hinv : Searching obs net_id clear_cells router.pad_aware start goal open_set closed)
    (hfuel : open_set.length + 10 * cellCount obs ≤ iterations + 10 * closed.length)
    (h : router.searchFrom obs goal net_id clear_cells iterations open_set closed = none) :
    ¬ Relation.ReflTransGen (IsMove obs net_id clear_cells router.pad_aware) start goal := by
  induction iterations generalizing open_set closed with
  | zero =>
    intro hreach
    -- no iteration is left, so the heap is empty
    have hbound := length_le_cellCount hinv.nodup hinv.closed_in
    obtain rfl : open_set = [] := eq_nil_of_length_eq_zero (by omega)
    obtain ⟨c, hc, rfl⟩ := hinv.covered.reached_of_empty dominance_eq hreach
    exact hinv.goal_open hc
  | succ iterations ih =>
    unfold GridRouter.searchFrom at h
    split at h
    next hpop =>
      intro hreach
      obtain rfl : open_set = [] := (pop_eq_none_iff _).mp hpop
      obtain ⟨c, hc, rfl⟩ := hinv.covered.reached_of_empty dominance_eq hreach
      exact hinv.goal_open hc
    next current rest hpop =>
      have hmem : ∀ n, n ∈ open_set ↔ n = current ∨ n ∈ rest := fun _ => mem_of_pop _ hpop
      have hlength : open_set.length = rest.length + 1 := (pop_perm _ hpop).length_eq
      split at h
      next hclosed => exact ih (hinv.skip hmem hclosed) (by omega) h
      next hclosed =>
        split at h
        · cases h
        next hgoal =>
          refine ih (hinv.expand hmem hclosed hgoal) ?_ h
          have hten := router.length_expand_le obs goal net_id clear_cells rest (current.pos :: closed) current
          rw [length_cons]
          omega

/-- **Completeness of the search**: with enough iterations, no path means that there is none. -/
theorem astar_complete {resolved_start resolved_goal : GridPos}
    (hstart : resolveAstarEndpoint obs start net_id = some resolved_start)
    (hgoal : resolveAstarEndpoint obs goal net_id = some resolved_goal)
    (hpad : router.pad_aware = true → obs.isFree start net_id = true ∧ obs.isFree goal net_id = true)
    (hiterations : 10 * obs.width * obs.height * obs.layers + 1 ≤ router.max_iterations)
    (h : router.astar obs start goal net_id clear_cells = none) (path : List GridPos)
    (hchain : path.IsChain (IsMove obs net_id clear_cells router.pad_aware))
    (hhead : path.head? = some resolved_start) : path.getLast? ≠ some resolved_goal := by
  intro hlast
  have hfree := isFree_of_resolve hstart
  unfold astar at h
  split at h
  next hblocked =>
    obtain ⟨hs, hg⟩ := hpad hblocked.1
    exact hblocked.2.elim (fun hn => hn hs) fun hn => hn hg
  next =>
    rw [hstart, hgoal] at h
    have hinitial : Searching obs net_id clear_cells router.pad_aware resolved_start resolved_goal
        (push lt [] (router.startNode resolved_start resolved_goal)) [] :=
      { covered := Covered.initial dominance_eq resolved_start
        nodup := nodup_nil
        opened_in := fun n hn => mem_singleton.mp hn ▸ inBounds_of_isFree hfree
        closed_in := fun _ hc => absurd hc not_mem_nil
        goal_open := not_mem_nil }
    refine searchFrom_complete hinitial ?_ h ?_
    · have hwidth : (0 : ℤ) ≤ obs.width * obs.height * obs.layers := by
        obtain ⟨hl, hx, hy⟩ := inBounds_iff.mp (inBounds_of_isFree hfree)
        exact mul_nonneg (mul_nonneg (by omega) (by omega)) (by omega)
      show 1 + 10 * (obs.width * obs.height * obs.layers).toNat ≤ router.max_iterations.toNat + 0
      have hassoc : 10 * obs.width * obs.height * obs.layers = 10 * (obs.width * obs.height * obs.layers) := by ring
      omega
    · cases path with
      | nil => cases hhead
      | cons p path =>
        obtain rfl := Option.some.inj hhead
        rw [getLast?_eq_some_getLast (cons_ne_nil p path)] at hlast
        exact relationReflTransGen_of_exists_isChain_cons path hchain (Option.some.inj hlast)

/-- **The search is sound and complete** for its moves. -/
theorem astar_iff_moves (router : GridRouter κ) (obs : ObstacleMap) (start goal : GridPos) (net_id : Option String)
    (clear_cells : ℤ) :
    (∀ path, router.astar obs start goal net_id clear_cells = some path →
      ∃ resolved_start resolved_goal,
        resolveAstarEndpoint obs start net_id = some resolved_start ∧
        resolveAstarEndpoint obs goal net_id = some resolved_goal ∧
        path.IsChain (IsMove obs net_id clear_cells router.pad_aware) ∧
        path.head? = some resolved_start ∧ path.getLast? = some resolved_goal) ∧
    ∀ resolved_start resolved_goal,
      resolveAstarEndpoint obs start net_id = some resolved_start →
      resolveAstarEndpoint obs goal net_id = some resolved_goal →
      (router.pad_aware = true → obs.isFree start net_id = true ∧ obs.isFree goal net_id = true) →
      10 * obs.width * obs.height * obs.layers + 1 ≤ router.max_iterations →
      router.astar obs start goal net_id clear_cells = none →
      ¬ ∃ path : List GridPos, path.IsChain (IsMove obs net_id clear_cells router.pad_aware) ∧
        path.head? = some resolved_start ∧ path.getLast? = some resolved_goal := by
  refine ⟨fun path h => astar_sound h, ?_⟩
  rintro resolved_start resolved_goal hstart hgoal hpad hiterations h ⟨path, hchain, hhead, hlast⟩
  exact astar_complete hstart hgoal hpad hiterations h path hchain hhead hlast

end GridRouter

def threeCells (blocked : Bool) : ObstacleMap :=
  { empty 3 1 1 with cells := fun pos => blocked && decide (pos.x = 1) }

def rowRouter : GridRouter ℚ where
  resolution := 1 / 4
  via_cost := 10
  turn_penalty := 1 / 5
  max_iterations := 31
  pad_aware := false
  sqrt2 := 3 / 2

theorem astar_iff_moves_threeCells :
    (∃ path, rowRouter.astar (threeCells false) ⟨0, 0, 0⟩ ⟨2, 0, 0⟩ none 0 = some path ∧
      path.IsChain (IsMove (threeCells false) none 0 false)) ∧
    ¬ ∃ path : List GridPos, path.IsChain (IsMove (threeCells true) none 0 false) ∧
      path.head? = some ⟨0, 0, 0⟩ ∧ path.getLast? = some ⟨2, 0, 0⟩ := by
  constructor
  · have hfound : rowRouter.astar (threeCells false) ⟨0, 0, 0⟩ ⟨2, 0, 0⟩ none 0 =
        some [⟨0, 0, 0⟩, ⟨1, 0, 0⟩, ⟨2, 0, 0⟩] := by decide
    obtain ⟨_, _, _, _, hchain, _⟩ := (rowRouter.astar_iff_moves _ _ _ _ _).1 _ hfound
    exact ⟨_, hfound, hchain⟩
  · have hblocked : rowRouter.astar (threeCells true) ⟨0, 0, 0⟩ ⟨2, 0, 0⟩ none 0 = none := by decide
    exact (rowRouter.astar_iff_moves _ _ _ _ _).2 _ _ (by decide) (by decide) (by decide) (by decide)
      hblocked

end ZapTrace
