import ZapTrace.Library.Bresenham

/-!
# The obstacle map of the grid router

The routing grid with its occupancy: cells that are blocked on their layer, copper reserved by a net,
and the copper of pads with the net each pad belongs to. The map is a function of the position here,
where the source keeps rows of numbers and dictionaries; an update changes it at the positions the
source writes.

A reservation takes the cells within a radius of a line (`ObstacleMap.blockLine`). It is refused as a
whole when one of them belongs to another net, and it is the only place where the clearance of a net
is checked while a net is routed without pad copper.

## Main results

* `ObstacleMap.blockLine_ok_iff`: when a line is reserved
* `lineCells_between`: where the cells of a segment lie
-/

namespace ZapTrace

open List

/-- A position on the routing grid. -/
structure GridPos where
  x : ℤ
  y : ℤ
  layer : ℤ
  deriving DecidableEq

/-- `range(a, b)` -/
def intRange (a b : ℤ) : List ℤ := (range (b - a).toNat).map fun (n : ℕ) => a + n

theorem mem_intRange {a b x : ℤ} : x ∈ intRange a b ↔ a ≤ x ∧ x < b := by
  simp only [intRange, mem_map, mem_range]
  constructor
  · rintro ⟨n, hn, rfl⟩
    omega
  · rintro ⟨ha, hb⟩
    exact ⟨(x - a).toNat, by omega, by omega⟩

theorem foldl_establishes {α β : Type} {I P : β → Prop} {f : β → α → β} {l : List α} {a : α} {b : β}
    (ha : a ∈ l) (hI : I b) (hinv : ∀ b x, I b → I (f b x)) (hkeep : ∀ b x, P b → P (f b x))
    (hstep : ∀ b, I b → P (f b a)) : P (l.foldl f b) := by
  induction l generalizing b with
  | nil => exact absurd ha not_mem_nil
  | cons x l ih =>
    rw [foldl_cons]
    rcases mem_cons.mp ha with rfl | ha
    · exact foldlRecOn (motive := P) l f (hstep b hI) fun b hb x _ => hkeep b x hb
    · exact ih ha (hinv b x hI)

/-- The positions within `radius` of `pos` on its layer, row by row. -/
def window (pos : GridPos) (radius : ℤ) : List GridPos :=
  (intRange (-radius) (radius + 1)).flatMap fun dy =>
    (intRange (-radius) (radius + 1)).map fun dx => ⟨pos.x + dx, pos.y + dy, pos.layer⟩

/-- The Chebyshev distance of two positions, on whatever layers. -/
def chebyshev (p q : GridPos) : ℤ := max |p.x - q.x| |p.y - q.y|

theorem chebyshev_comm (p q : GridPos) : chebyshev p q = chebyshev q p := by
  rw [chebyshev, chebyshev, abs_sub_comm p.x, abs_sub_comm p.y]

theorem mem_window {pos p : GridPos} {radius : ℤ} :
    p ∈ window pos radius ↔ p.layer = pos.layer ∧ chebyshev pos p ≤ radius := by
  obtain ⟨x, y, layer⟩ := p
  simp only [window, mem_flatMap, mem_map, mem_intRange, chebyshev, max_le_iff, abs_le,
    GridPos.mk.injEq]
  constructor
  · rintro ⟨dy, hdy, dx, hdx, rfl, rfl, rfl⟩
    exact ⟨rfl, by omega, by omega⟩
  · rintro ⟨rfl, hx, hy⟩
    exact ⟨y - pos.y, by omega, x - pos.x, by omega, by omega, by omega, rfl⟩

/-- The cells of the line between two positions, on the layer of the first. -/
def lineCells (p0 p1 : GridPos) : List GridPos :=
  (Bresenham.line p0.x p0.y p1.x p1.y).map fun c => ⟨c.1, c.2, p0.layer⟩

theorem mem_lineCells_start (p0 p1 : GridPos) : p0 ∈ lineCells p0 p1 :=
  mem_map.mpr ⟨(p0.x, p0.y), Bresenham.mem_line_start _ _ _ _, rfl⟩

theorem mem_lineCells_end {p0 p1 : GridPos} (hlayer : p0.layer = p1.layer) :
    p1 ∈ lineCells p0 p1 :=
  mem_map.mpr ⟨(p1.x, p1.y), Bresenham.mem_line_end _ _ _ _, by rw [hlayer]⟩

/-- The cells of a line lie between its ends, on the layer of the first. -/
theorem lineCells_between {p0 p1 c : GridPos} (hc : c ∈ lineCells p0 p1) :
    c.layer = p0.layer ∧ (min p0.x p1.x ≤ c.x ∧ c.x ≤ max p0.x p1.x) ∧
      min p0.y p1.y ≤ c.y ∧ c.y ≤ max p0.y p1.y := by
  obtain ⟨xy, hxy, rfl⟩ := mem_map.mp hc
  exact ⟨rfl, Bresenham.between_of_mem_line _ _ _ _ hxy⟩

/-- The occupancy of the grid. -/
structure ObstacleMap where
  width : ℤ
  height : ℤ
  layers : ℤ
  /-- Blocked cells. -/
  cells : GridPos → Bool
  /-- Copper reservations by net. -/
  copper : GridPos → Option String
  /-- Pad copper with the net of the pad; a pad without a net is never free. -/
  pads : GridPos → Option (Option String)
  pad_conflicts : GridPos → Bool
  enforce_static_clearance : Bool

namespace ObstacleMap

/-- A grid on which nothing is blocked. -/
def empty (width height layers : ℤ) : ObstacleMap :=
  ⟨width, height, layers, fun _ => false, fun _ => none, fun _ => none, fun _ => false, false⟩

variable (obs : ObstacleMap)

/-! ## Queries -/

def inBounds (pos : GridPos) : Bool :=
  decide (0 ≤ pos.layer ∧ pos.layer < obs.layers) && decide (0 ≤ pos.x ∧ pos.x < obs.width) &&
    decide (0 ≤ pos.y ∧ pos.y < obs.height)

def isFree (pos : GridPos) (net_id : Option String) : Bool :=
  obs.inBounds pos && !obs.cells pos && !obs.pad_conflicts pos &&
    (match obs.pads pos with
      | none => true
      | some pad => net_id.isSome && decide (pad = net_id)) &&
    match obs.copper pos with
      | none => true
      | some owner => decide (net_id = some owner)

def isCorridorFree (pos : GridPos) (net_id : Option String) (radius : ℤ) : Bool :=
  decide (0 ≤ radius) && (window pos radius).all fun p => obs.isFree p net_id

/-- Pad copper is never given up; pads of different nets in one cell are a conflict. -/
def markPad (point : GridPos) (net_id : Option String) : ObstacleMap :=
  { obs with
    pad_conflicts := fun p =>
      if p = point ∧ (obs.pads point).isSome ∧ obs.pads point ≠ some net_id then true
      else obs.pad_conflicts p
    pads := fun p => if p = point then some net_id else obs.pads p }

/-- Every cell within a round aperture is free on every layer. -/
def canPlaceThroughVia (pos : GridPos) (net_id : String) (radius_cells : ℤ) : Bool :=
  decide (0 ≤ radius_cells) && obs.inBounds pos &&
    (intRange 0 obs.layers).all fun layer =>
      (intRange (-radius_cells) (radius_cells + 1)).all fun dy =>
        (intRange (-radius_cells) (radius_cells + 1)).all fun dx =>
          decide (dx * dx + dy * dy > radius_cells * radius_cells) ||
            obs.isFree ⟨pos.x + dx, pos.y + dy, layer⟩ (some net_id)

def owner (pos : GridPos) : Option String := obs.copper pos

/-! ## Updates -/

def block (pos : GridPos) : ObstacleMap :=
  if obs.inBounds pos then { obs with cells := fun p => if p = pos then true else obs.cells p }
  else obs

def unblock (pos : GridPos) : ObstacleMap :=
  if obs.inBounds pos then { obs with cells := fun p => if p = pos then false else obs.cells p }
  else obs

def blockRect (x0 y0 x1 y1 layer : ℤ) : ObstacleMap :=
  { obs with
    cells := fun p =>
      if p.layer = layer ∧ (max 0 y0 ≤ p.y ∧ p.y ≤ min (obs.height - 1) y1) ∧
          max 0 x0 ≤ p.x ∧ p.x ≤ min (obs.width - 1) x1 then true
      else obs.cells p }

/-- The net may take the cell: it is on the grid, and no other net has it. -/
def mayOpen (pos : GridPos) (net_id : String) : Bool :=
  obs.inBounds pos && !obs.pad_conflicts pos &&
    (match obs.pads pos with
      | none => true
      | some pad => decide (pad = some net_id)) &&
    match obs.owner pos with
      | none => true
      | some owner => decide (owner = net_id)

/-- A cell of an endpoint goes to the net, unless another net has it. -/
def openForNet (pos : GridPos) (net_id : String) : ObstacleMap :=
  if obs.mayOpen pos net_id then
    let opened := obs.unblock pos
    { opened with copper := fun p => if p = pos then some net_id else opened.copper p }
  else obs

/-- The cells within `radius` of a line that are on the grid. -/
def reservations (p0 p1 : GridPos) (radius : ℤ) : List GridPos :=
  ((lineCells p0 p1).flatMap fun c => window c radius).filter fun p => obs.inBounds p

/-- The net cannot reserve the cell. -/
def isReserved (net_id : String) (point : GridPos) : Bool :=
  (match obs.owner point with
    | none => false
    | some owner => decide (owner ≠ net_id)) ||
  obs.pad_conflicts point ||
  (match obs.pads point with
    | none => false
    | some pad => decide (pad ≠ some net_id)) ||
  (obs.enforce_static_clearance && obs.cells point)

/-- Block a widened line, or reserve it for a net. -/
def blockLine (p0 p1 : GridPos) (radius : ℤ) : Option String → Except String ObstacleMap
  | none =>
    Except.ok ((lineCells p0 p1).foldl (fun obs c =>
      if 0 < radius then
        (obs.block c).blockRect (c.x - radius) (c.y - radius) (c.x + radius) (c.y + radius) p0.layer
      else obs.block c) obs)
  | some net_id =>
    if (obs.reservations p0 p1 radius).any (obs.isReserved net_id) then
      Except.error "Copper clearance is reserved by another net or a static obstacle"
    else
      Except.ok { obs with
        copper := fun p => if p ∈ obs.reservations p0 p1 radius then some net_id else obs.copper p }

variable {obs}

/-! ## What the queries say -/
variable {pos : GridPos}

theorem inBounds_iff :
    obs.inBounds pos ↔ (0 ≤ pos.layer ∧ pos.layer < obs.layers) ∧
      (0 ≤ pos.x ∧ pos.x < obs.width) ∧ 0 ≤ pos.y ∧ pos.y < obs.height := by
  simp [inBounds, and_assoc]

theorem inBounds_of_isFree {net_id : Option String} (h : obs.isFree pos net_id) : obs.inBounds pos := by
  simp only [isFree, Bool.and_eq_true] at h
  exact h.1.1.1.1

theorem cells_of_isFree {net_id : Option String} (h : obs.isFree pos net_id) : obs.cells pos = false := by
  simp only [isFree, Bool.and_eq_true, Bool.not_eq_true'] at h
  exact h.1.1.1.2

theorem owner_of_isFree {net_id owner : String} (h : obs.isFree pos (some net_id))
    (howner : obs.copper pos = some owner) : owner = net_id := by
  simp only [isFree, howner, Bool.and_eq_true, decide_eq_true_eq] at h
  exact (Option.some.inj h.2).symm

variable {net_id : String}

theorem isFree_of_owner (hin : obs.inBounds pos) (hcells : obs.cells pos = false) (hpads : obs.pads pos = none)
    (hconflict : obs.pad_conflicts pos = false) (howner : obs.copper pos = some net_id) :
    obs.isFree pos (some net_id) := by
  simp [isFree, hin, hcells, hpads, hconflict, howner]

theorem mem_reservations {p0 p1 p : GridPos} {radius : ℤ} :
    p ∈ obs.reservations p0 p1 radius ↔
      obs.inBounds p ∧ ∃ c ∈ lineCells p0 p1, p.layer = c.layer ∧ chebyshev c p ≤ radius := by
  simp only [reservations, mem_filter, mem_flatMap, mem_window]
  exact and_comm

theorem not_isReserved_owner {point : GridPos} {net_id owner : String}
    (h : obs.isReserved net_id point = false) (howner : obs.copper point = some owner) :
    owner = net_id := by
  simp only [isReserved, ObstacleMap.owner, howner, Bool.or_eq_false_iff, decide_eq_false_iff_not,
    not_not] at h
  exact h.1.1.1

/-! ## What the updates change -/

theorem openForNet_of_mayOpen (h : obs.mayOpen pos net_id) :
    obs.openForNet pos net_id =
      { obs with
        cells := fun p => if p = pos then false else obs.cells p
        copper := fun p => if p = pos then some net_id else obs.copper p } := by
  have hin : obs.inBounds pos := by
    simp only [mayOpen, Bool.and_eq_true] at h
    exact h.1.1.1
  simp [openForNet, h, unblock, hin]

theorem openForNet_of_not_mayOpen (h : ¬ obs.mayOpen pos net_id) : obs.openForNet pos net_id = obs := if_neg h

/-- A reservation goes through exactly when no cell of it is another net's or kept free, and then it
makes the net their owner. -/
theorem blockLine_ok_iff {p0 p1 : GridPos} {radius : ℤ} {obs' : ObstacleMap} :
    obs.blockLine p0 p1 radius (some net_id) = Except.ok obs' ↔
      (∀ p ∈ obs.reservations p0 p1 radius, obs.isReserved net_id p = false) ∧
        obs' = { obs with
          copper := fun p =>
            if p ∈ obs.reservations p0 p1 radius then some net_id else obs.copper p } := by
  simp only [blockLine]
  split
  · rename_i hany
    obtain ⟨p, hp, hres⟩ := any_eq_true.mp hany
    refine ⟨fun h => (by cases h), fun h => ?_⟩
    rw [h.1 p hp] at hres
    cases hres
  · rename_i hany
    have hall : ∀ p ∈ obs.reservations p0 p1 radius, obs.isReserved net_id p = false := by
      intro p hp
      by_contra hres
      exact hany (any_eq_true.mpr ⟨p, hp, by simpa using hres⟩)
    constructor
    · intro h
      cases h
      exact ⟨hall, rfl⟩
    · rintro ⟨-, rfl⟩
      rfl

end ObstacleMap

end ZapTrace
