import ZapTrace.Algo.Shove
import ZapTrace.Library.Boxes

/-!
# The clearance of shoved connections

A path that no obstacle overlaps may touch the obstacles, since they are not made larger by the clearance.
The L of a connection is only looked at in this way. A detour passes above all obstacles with the
clearance, but its two risers start at the ends of the connection, wherever these are. So a resolved
connection keeps the clearance exactly when its path happens to.

## Main results

* `forall₂_pathOf`: the path of each connection, in each of the two programs
* `sound_iff_roomy`: a result is sound exactly when there is room
-/

set_option linter.unusedSectionVars false

namespace ZapTrace.Shove

open Plane List

variable {K : Type} [Field K] [LinearOrder K]

def Segment.start (s : Segment K) : Point K := (s.x1, s.y1)

def Segment.stop (s : Segment K) : Point K := (s.x2, s.y2)

/-- A path joins two points: it starts at the first one, each segment starts where the one before it
ends, and the last one ends at the second point. -/
def Joins : Point K → List (Segment K) → Point K → Prop
  | p, [], q => p = q
  | p, s :: rest, q => s.start = p ∧ Joins s.stop rest q

instance : ∀ (p : Point K) (path : List (Segment K)) (q : Point K), Decidable (Joins p path q)
  | p, [], q => inferInstanceAs (Decidable (p = q))
  | p, s :: rest, q =>
    have := instDecidableJoins s.stop rest q
    inferInstanceAs (Decidable (s.start = p ∧ Joins s.stop rest q))

/-- Whether a connection is resolved and its path, when the detour has a given height. -/
def pathOf (detour_y : K) (conn : Connection K) (obstacles : List (Segment K)) :
    Bool × List (Segment K) :=
  if anyOverlap conn.naive obstacles = false then (true, conn.naive)
  else if anyOverlap (conn.around detour_y) obstacles = false then (true, conn.around detour_y)
  else (false, conn.naive)
variable {obstacles : List (Segment K)} {conn : Connection K}

theorem pathOf_of_free {detour_y : K} (h : anyOverlap conn.naive obstacles = false) :
    pathOf detour_y conn obstacles = (true, conn.naive) :=
  if_pos h

theorem pathOf_of_blocked {detour_y : K} (h : anyOverlap conn.naive obstacles = true) :
    pathOf detour_y conn obstacles =
      if anyOverlap (conn.around detour_y) obstacles = false then (true, conn.around detour_y)
      else (false, conn.naive) :=
  if_neg (by simp [h])

theorem joins_pathOf (detour_y : K) (conn : Connection K) (obstacles : List (Segment K)) :
    Joins (conn.x1, conn.y1) (pathOf detour_y conn obstacles).2 (conn.x2, conn.y2) := by
  have hnaive : Joins (conn.x1, conn.y1) conn.naive (conn.x2, conn.y2) := ⟨rfl, rfl, rfl⟩
  have haround : Joins (conn.x1, conn.y1) (conn.around detour_y) (conn.x2, conn.y2) := ⟨rfl, rfl, rfl, rfl⟩
  unfold pathOf
  split_ifs
  · exact hnaive
  · exact haround
  · exact hnaive

/-- What counts as the height of an obstacle, in the program that runs. -/
def upperOf (core_available force_python : Bool) : Segment K → K :=
  if force_python = false ∧ core_available = true then Segment.y2 else fun o => max o.y1 o.y2

/-- The height of the detour, in the program that runs. -/
def heightOf (core_available force_python : Bool) (obstacles : List (Segment K)) (clearance : K)
    (conn : Connection K) : K :=
  crest (upperOf core_available force_python) conn obstacles + clearance

theorem pathOf_walkaround (fmt : Routing.Format K) (conn : Connection K) (obstacles : List (Segment K))
    (clearance : K) :
    ((walkaround fmt conn obstacles clearance).resolved, (walkaround fmt conn obstacles clearance).segments) =
      pathOf (detourY conn obstacles clearance) conn obstacles := by
  unfold walkaround pathOf
  dsimp only
  split_ifs <;> rfl

theorem pathOf_tryShoveWalkaround (fmt : Routing.Format K) (conn : Connection K)
    (obstacles : List (Segment K)) (clearance : K) :
    ((Native.tryShoveWalkaround fmt conn obstacles clearance).resolved,
      (Native.tryShoveWalkaround fmt conn obstacles clearance).segments) =
      pathOf (Native.detourY conn obstacles clearance) conn obstacles := by
  unfold Native.tryShoveWalkaround pathOf
  dsimp only
  split_ifs <;> rfl

variable [IsStrictOrderedRing K]

variable {clearance : K}

theorem forall₂_pathOf {fmt : Routing.Format K} {core_available force_python : Bool} {connections : List (Connection K)}
    {results : List (ShoveResult K)}
    (h : routeShove fmt core_available connections obstacles clearance force_python = .ok results) :
    0 ≤ clearance ∧ List.Forall₂ (fun conn (r : ShoveResult K) => (r.resolved, r.segments) =
      pathOf (heightOf core_available force_python obstacles clearance conn) conn obstacles)
      connections results := by
  unfold routeShove at h
  by_cases hclearance : clearance < 0
  · rw [if_pos hclearance] at h
    cases h
  rw [if_neg hclearance] at h
  refine ⟨not_lt.mp hclearance, ?_⟩
  by_cases hcore : force_python = false ∧ core_available = true
  · rw [if_pos hcore] at h
    cases hnative : Native.routeShove fmt connections obstacles clearance with
    | error e =>
      rw [hnative] at h
      cases h
    | ok results' =>
      rw [hnative] at h
      obtain rfl : results' = results := Except.ok.inj h
      obtain rfl := (Native.routeShove_eq_ok hnative).2.2.2
      rw [forall₂_map_right_iff, forall₂_same]
      intro conn _
      simp only [heightOf, upperOf, if_pos hcore, ← Native.detourY_eq]
      exact pathOf_tryShoveWalkaround fmt conn obstacles clearance
  · rw [if_neg hcore] at h
    obtain rfl := Except.ok.inj h
    rw [forall₂_map_right_iff, forall₂_same]
    intro conn _
    simp only [heightOf, upperOf, if_neg hcore, ← detourY_eq]
    exact pathOf_walkaround fmt conn obstacles clearance

/-! ## Distances -/

/-- Every point of a segment is at least the clearance away from every obstacle. -/
def KeepsClear (obstacles : List (Segment K)) (clearance : K) (s : Segment K) : Prop :=
  ∀ o ∈ obstacles, ∀ p ∈ segment K s.start s.stop, ∀ q, InBox o.start q o.stop →
    AtLeast (distSq p q) clearance

/-- What a result says when it is resolved. -/
def Sound (obstacles : List (Segment K)) (clearance : K) (conn : Connection K) (r : ShoveResult K) : Prop :=
  r.resolved = true → Joins (conn.x1, conn.y1) r.segments (conn.x2, conn.y2) ∧
    ∀ s ∈ r.segments, KeepsClear obstacles clearance s

def RoomAround (obstacles : List (Segment K)) (clearance : K) (p q : Point K) : Prop :=
  ∀ o ∈ obstacles, AtLeast (boxGapSq p q o.start o.stop) clearance

instance (obstacles : List (Segment K)) (clearance : K) (p q : Point K) :
    Decidable (RoomAround obstacles clearance p q) :=
  inferInstanceAs (Decidable (∀ o ∈ obstacles, _))

/-- The obstacles leave room for a connection: for its L when nothing overlaps this, and otherwise for a
detour of the given height, unless something overlaps the detour too. -/
def Roomy (detour_y : K) (obstacles : List (Segment K)) (clearance : K) (conn : Connection K) : Prop :=
  (anyOverlap conn.naive obstacles = false →
    RoomAround obstacles clearance (conn.x1, conn.y1) (conn.x2, conn.y1) ∧
      RoomAround obstacles clearance (conn.x2, conn.y1) (conn.x2, conn.y2)) ∧
  (anyOverlap conn.naive obstacles = true → anyOverlap (conn.around detour_y) obstacles = false →
    RoomAround obstacles clearance (conn.x1, conn.y1) (conn.x1, detour_y) ∧
      RoomAround obstacles clearance (conn.x1, detour_y) (conn.x2, detour_y) ∧
      RoomAround obstacles clearance (conn.x2, detour_y) (conn.x2, conn.y2))

instance (detour_y : K) (obstacles : List (Segment K)) (clearance : K) (conn : Connection K) :
    Decidable (Roomy detour_y obstacles clearance conn) :=
  inferInstanceAs (Decidable ((_ → _ ∧ _) ∧ (_ → _ → _ ∧ _ ∧ _)))

theorem keepsClear_iff {s : Segment K} (h : s.x1 = s.x2 ∨ s.y1 = s.y2) :
    KeepsClear obstacles clearance s ↔ RoomAround obstacles clearance s.start s.stop := by
  refine forall₂_congr fun o _ => ?_
  simp only [mem_segment_iff_inBox (p := _) (show s.start.1 = s.stop.1 ∨ s.start.2 = s.stop.2 from h)]
  exact forall_atLeast_iff _ _ _ _ _

theorem keepsClear_naive_iff :
    (∀ s ∈ conn.naive, KeepsClear obstacles clearance s) ↔
      RoomAround obstacles clearance (conn.x1, conn.y1) (conn.x2, conn.y1) ∧
        RoomAround obstacles clearance (conn.x2, conn.y1) (conn.x2, conn.y2) := by
  simp only [Connection.naive, forall_mem_cons, not_mem_nil, IsEmpty.forall_iff, implies_true,
    and_true]
  exact and_congr (keepsClear_iff (.inr rfl)) (keepsClear_iff (.inl rfl))

theorem keepsClear_around_iff {clearance detour_y : K} :
    (∀ s ∈ conn.around detour_y, KeepsClear obstacles clearance s) ↔
      RoomAround obstacles clearance (conn.x1, conn.y1) (conn.x1, detour_y) ∧
        RoomAround obstacles clearance (conn.x1, detour_y) (conn.x2, detour_y) ∧
        RoomAround obstacles clearance (conn.x2, detour_y) (conn.x2, conn.y2) := by
  simp only [Connection.around, forall_mem_cons, not_mem_nil, IsEmpty.forall_iff, implies_true,
    and_true]
  exact and_congr (keepsClear_iff (.inl rfl))
    (and_congr (keepsClear_iff (.inr rfl)) (keepsClear_iff (.inl rfl)))

theorem sound_iff_of_pathOf {clearance detour_y : K} {r : ShoveResult K}
    (h : (r.resolved, r.segments) = pathOf detour_y conn obstacles) :
    Sound obstacles clearance conn r ↔ Roomy detour_y obstacles clearance conn := by
  have hjoins := joins_pathOf detour_y conn obstacles
  rw [← h] at hjoins
  unfold Sound Roomy
  simp only [hjoins, true_and]
  cases hnaive : anyOverlap conn.naive obstacles with
  | false =>
    rw [pathOf_of_free hnaive, Prod.mk.injEq] at h
    simp [h.1, h.2, keepsClear_naive_iff]
  | true =>
    rw [pathOf_of_blocked hnaive] at h
    cases haround : anyOverlap (conn.around detour_y) obstacles with
    | false =>
      rw [if_pos haround, Prod.mk.injEq] at h
      simp [h.1, h.2, keepsClear_around_iff]
    | true =>
      rw [if_neg (by simp [haround]), Prod.mk.injEq] at h
      simp [h.1]

/-! ## The detour of the fallback -/

/-! ## The router -/

/-- **A resolved connection keeps the clearance** exactly when the obstacles leave room for its path. -/
theorem sound_iff_roomy {fmt : Routing.Format K} {core_available force_python : Bool}
    {connections : List (Connection K)} {obstacles : List (Segment K)} {clearance : K}
    {results : List (ShoveResult K)}
    (h : routeShove fmt core_available connections obstacles clearance force_python = .ok results) :
    List.Forall₂ (fun conn r => Sound obstacles clearance conn r ↔
      Roomy (heightOf core_available force_python obstacles clearance conn) obstacles clearance conn)
      connections results :=
  (forall₂_pathOf h).2.imp fun _ _ hpath => sound_iff_of_pathOf hpath

def alongWall : Connection ℚ := ⟨0, 5, 20, 5, "NET1"⟩

def wall : List (Segment ℚ) := [⟨5, 5, 15, 10⟩]

/-- The L along the wall is taken, and there is no room for it. -/
theorem sound_iff_roomy_alongWall :
    ∃ results, routeShove Routing.plainFormat false [alongWall] wall (1 / 2) true = .ok results ∧
      List.Forall₂ (fun conn r => Sound wall (1 / 2) conn r ↔
        Roomy (heightOf false true wall (1 / 2) conn) wall (1 / 2) conn) [alongWall] results :=
  have hresults := routeShove_fallback Routing.plainFormat false [alongWall] wall
    (show (0 : ℚ) ≤ 1 / 2 by norm_num)
  ⟨_, hresults, sound_iff_roomy hresults⟩

theorem not_sound_alongWall :
    ∃ r, routeShove Routing.plainFormat false [alongWall] wall (1 / 2) true = .ok [r] ∧
      ¬ Sound wall (1 / 2) alongWall r := by
  have hresults := routeShove_fallback Routing.plainFormat false [alongWall] wall
    (show (0 : ℚ) ≤ 1 / 2 by norm_num)
  refine ⟨_, hresults, fun hsound => ?_⟩
  have hroomy := (sound_iff_of_pathOf (pathOf_walkaround Routing.plainFormat alongWall wall (1 / 2))).mp hsound
  revert hroomy
  with_unfolding_all decide

end ZapTrace.Shove
