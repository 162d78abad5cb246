import ZapTrace.Core.Routing
import ZapTrace.Library.Lists
import Mathlib.Order.WithBot

/-!
# The shove router

A connection is routed as an L, or, where an obstacle is in the way, around all obstacles on the side of
greater `y`. There are two programs for it: the kernel of the native extension, and the fallback in
Python that is used when there is no extension. They take the height of an obstacle in two ways: the
fallback takes the greater of its two corners, the kernel takes the second one.

## Main results

* `detourY_eq`, `Native.detourY_eq`: the height of the detour, as one maximum
* `routeShove_agree`: where the second corner of an obstacle is the upper one, the two programs agree
-/

namespace ZapTrace.Shove

open Routing List

/-- A trace from one point to another, or the box with these two corners. -/
structure Segment (K : Type) where
  x1 : K
  y1 : K
  x2 : K
  y2 : K
  deriving DecidableEq

/-- The two ends of a rubber band. -/
structure Connection (K : Type) where
  x1 : K
  y1 : K
  x2 : K
  y2 : K
  net_id : String

structure ShoveResult (K : Type) where
  net_id : String
  provenance : String
  resolved : Bool
  segments : List (Segment K)
  deriving DecidableEq

variable {K : Type} [Field K] [LinearOrder K]

/-- Two boxes overlap. Boxes that only touch do not, and a box may be a segment. -/
def aabbOverlap (a b : Segment K) : Prop :=
  min a.x1 a.x2 < max b.x1 b.x2 ∧ max a.x1 a.x2 > min b.x1 b.x2 ∧
    min a.y1 a.y2 < max b.y1 b.y2 ∧ max a.y1 a.y2 > min b.y1 b.y2

instance (a b : Segment K) : Decidable (aabbOverlap a b) := inferInstanceAs (Decidable (_ ∧ _))

def anyOverlap (path obstacles : List (Segment K)) : Bool :=
  obstacles.any fun obstacle => path.any fun segment => decide (aabbOverlap segment obstacle)

/-- The path with one corner. -/
def Connection.naive (conn : Connection K) : List (Segment K) :=
  [⟨conn.x1, conn.y1, conn.x2, conn.y1⟩, ⟨conn.x2, conn.y1, conn.x2, conn.y2⟩]

/-- The path by way of a height. -/
def Connection.around (conn : Connection K) (detour_y : K) : List (Segment K) :=
  [⟨conn.x1, conn.y1, conn.x1, detour_y⟩, ⟨conn.x1, detour_y, conn.x2, detour_y⟩,
    ⟨conn.x2, detour_y, conn.x2, conn.y2⟩]

/-! ## The fallback -/

/-- The height of the detour of the fallback. -/
def detourY (conn : Connection K) (obstacles : List (Segment K)) (clearance : K) : K :=
  let above := max conn.y1 conn.y2 + clearance
  max ((obstacles.map fun o => max o.y1 o.y2 + clearance).max?.getD above) above

def walkaround (fmt : Routing.Format K) (conn : Connection K) (obstacles : List (Segment K))
    (clearance : K) : ShoveResult K :=
  let net_id := s!"({fmt.fixed1 conn.x1},{fmt.fixed1 conn.y1})-({fmt.fixed1 conn.x2},{fmt.fixed1 conn.y2})"
  let naive := conn.naive
  if anyOverlap naive obstacles = false then
    { net_id := net_id, provenance := "direct-l-path", resolved := true, segments := naive }
  else
    let detour_y := detourY conn obstacles clearance
    let around := conn.around detour_y
    if anyOverlap around obstacles = false then
      { net_id := net_id, provenance := s!"walkaround-above-y{fmt.fixed3 detour_y}", resolved := true,
        segments := around }
    else
      { net_id := net_id, provenance := "no-solution-naive-fallback", resolved := false, segments := naive }

/-! ## The kernel -/

namespace Native

/-- An error of a native kernel. All numbers are finite here, and the shove kernel has no indices. -/
inductive NativeError
  | invalidRange (field message : String)
  | resourceLimit (resource : String) (actual maximum : ℕ)
  deriving DecidableEq

/-- The text of an error. -/
def NativeError.toString : NativeError → String
  | .invalidRange field message => s!"{field} {message}"
  | .resourceLimit resource actual maximum =>
    s!"{resource} count {actual} exceeds supported maximum {maximum}"

def MAX_SHOVE_CONNECTIONS : ℕ := 10000

def MAX_SHOVE_OBSTACLES : ℕ := 2000

def boundedLen (resource : String) (actual maximum : ℕ) : Except NativeError Unit :=
  if actual ≤ maximum then .ok () else .error (.resourceLimit resource actual maximum)

def nonNegative (field : String) (value : K) : Except NativeError K :=
  if value ≥ 0 then .ok value else .error (.invalidRange field "must be non-negative")

/-- The height of the detour of the kernel. The least number is below all others. -/
def detourY (conn : Connection K) (obstacles : List (Segment K)) (clearance : K) : K :=
  let above := max conn.y1 conn.y2 + clearance
  let highest := (obstacles.map fun o => ((o.y2 + clearance : K) : WithBot K)).foldl max ⊥
  max (highest.unbotD above) above

def tryShoveWalkaround (fmt : Routing.Format K) (conn : Connection K) (obstacles : List (Segment K))
    (clearance : K) : ShoveResult K :=
  let naive := conn.naive
  if anyOverlap naive obstacles = false then
    { net_id := "", segments := naive, provenance := "direct-l-path", resolved := true }
  else
    let detour_y := detourY conn obstacles clearance
    let around := conn.around detour_y
    if anyOverlap around obstacles = false then
      { net_id := "", segments := around, provenance := s!"walkaround-above-y{fmt.fixed3 detour_y}",
        resolved := true }
    else
      { net_id := "", segments := naive, provenance := "no-solution-naive-fallback", resolved := false }

/-- The kernel. -/
def routeShove (fmt : Routing.Format K) (connections : List (Connection K)) (obstacles : List (Segment K))
    (clearance : K) : Except NativeError (List (ShoveResult K)) := do
  boundedLen "shove_connections" connections.length MAX_SHOVE_CONNECTIONS
  boundedLen "shove_obstacles" obstacles.length MAX_SHOVE_OBSTACLES
  let clearance ← nonNegative "clearance" clearance
  pure (connections.map fun conn =>
    { tryShoveWalkaround fmt conn obstacles clearance with net_id := conn.net_id })

end Native

/-! ## The router -/

/-- The router. An error is the text of a `ValueError`; those of the kernel are not caught. -/
def routeShove (fmt : Routing.Format K) (core_available : Bool) (connections : List (Connection K))
    (obstacles : List (Segment K)) (clearance : K) (force_python : Bool) :
    Except String (List (ShoveResult K)) :=
  if clearance < 0 then
    .error s!"clearance must be non-negative, got {fmt.shown clearance}"
  else if force_python = false ∧ core_available = true then
    (Native.routeShove fmt connections obstacles clearance).mapError Native.NativeError.toString
  else
    .ok (connections.map fun conn =>
      { walkaround fmt conn obstacles clearance with net_id := conn.net_id })

theorem Native.routeShove_eq_ok {fmt : Routing.Format K} {connections : List (Connection K)}
    {obstacles : List (Segment K)} {clearance : K} {results : List (ShoveResult K)}
    (h : Native.routeShove fmt connections obstacles clearance = .ok results) :
    connections.length ≤ Native.MAX_SHOVE_CONNECTIONS ∧ obstacles.length ≤ Native.MAX_SHOVE_OBSTACLES ∧
      0 ≤ clearance ∧ results = connections.map fun conn =>
        { Native.tryShoveWalkaround fmt conn obstacles clearance with net_id := conn.net_id } := by
  unfold Native.routeShove Native.boundedLen Native.nonNegative at h
  split_ifs at h with hconnections hobstacles hclearance
  · exact ⟨hconnections, hobstacles, hclearance, (Except.ok.inj h).symm⟩
  all_goals cases h

theorem routeShove_fallback (fmt : Routing.Format K) (core_available : Bool)
    (connections : List (Connection K)) (obstacles : List (Segment K)) {clearance : K}
    (h : 0 ≤ clearance) :
    routeShove fmt core_available connections obstacles clearance true =
      .ok (connections.map fun conn =>
        { walkaround fmt conn obstacles clearance with net_id := conn.net_id }) := by
  rw [routeShove, if_neg (not_lt.mpr h), if_neg (by simp)]

/-! ## Heights -/

section Heights

omit [Field K]

theorem foldl_max_le_iff {ys : List K} {y b : K} : ys.foldl max y ≤ b ↔ y ≤ b ∧ ∀ x ∈ ys, x ≤ b := by
  induction ys generalizing y with
  | nil => simp
  | cons x ys ih => simp [ih, and_assoc]

theorem foldl_max_coe {α : Type} (f : α → K) (xs : List α) (y : K) :
    (xs.map fun x => ((f x : K) : WithBot K)).foldl max (y : WithBot K) =
      (((xs.map f).foldl max y : K) : WithBot K) := by
  induction xs generalizing y with
  | nil => rfl
  | cons x xs ih => simpa using ih (max y (f x))

/-- The top of what is there, when an obstacle is as high as `upper` says. -/
def crest (upper : Segment K → K) (conn : Connection K) (obstacles : List (Segment K)) : K :=
  (obstacles.map upper).foldl max (max conn.y1 conn.y2)

theorem crest_le_iff {upper : Segment K → K} {conn : Connection K} {obstacles : List (Segment K)} {b : K} :
    crest upper conn obstacles ≤ b ↔ max conn.y1 conn.y2 ≤ b ∧ ∀ o ∈ obstacles, upper o ≤ b := by
  simp [crest, foldl_max_le_iff]

theorem upper_le_crest {upper : Segment K → K} {conn : Connection K} {obstacles : List (Segment K)}
    {o : Segment K} (ho : o ∈ obstacles) : upper o ≤ crest upper conn obstacles :=
  (crest_le_iff.mp le_rfl).2 o ho

end Heights

variable [IsStrictOrderedRing K]

theorem detourY_eq (conn : Connection K) (obstacles : List (Segment K)) (clearance : K) :
    detourY conn obstacles clearance = crest (fun o => max o.y1 o.y2) conn obstacles + clearance := by
  refine eq_of_forall_ge_iff fun b => ?_
  rw [← le_sub_iff_add_le, crest_le_iff, le_sub_iff_add_le]
  cases obstacles with
  | nil => simp [detourY]
  | cons o rest =>
    simp only [detourY, map_cons, max?_cons', Option.getD_some, max_le_iff (a := foldl _ _ _),
      foldl_max_le_iff, forall_mem_map, forall_mem_cons, le_sub_iff_add_le]
    exact and_comm

theorem Native.detourY_eq (conn : Connection K) (obstacles : List (Segment K)) (clearance : K) :
    Native.detourY conn obstacles clearance = crest Segment.y2 conn obstacles + clearance := by
  refine eq_of_forall_ge_iff fun b => ?_
  rw [← le_sub_iff_add_le, crest_le_iff, le_sub_iff_add_le]
  cases obstacles with
  | nil => simp [Native.detourY]
  | cons o rest =>
    simp only [Native.detourY, map_cons, foldl_cons, bot_le, max_eq_right, foldl_max_coe,
      WithBot.unbotD_coe, max_le_iff (a := foldl _ _ _), foldl_max_le_iff, forall_mem_map,
      forall_mem_cons, le_sub_iff_add_le]
    exact and_comm

/-! ## The two programs -/

/-- No obstacle is highest by its first corner: the ends of the connection, or the second corner of some
obstacle, are as high. -/
def SecondCornersOnTop (conn : Connection K) (obstacles : List (Segment K)) : Prop :=
  ∀ o ∈ obstacles, o.y1 ≤ max conn.y1 conn.y2 ∨ ∃ o' ∈ obstacles, o.y1 ≤ o'.y2

omit [Field K] [IsStrictOrderedRing K] in
theorem secondCornersOnTop_of_le {obstacles : List (Segment K)} (h : ∀ o ∈ obstacles, o.y1 ≤ o.y2)
    (conn : Connection K) : SecondCornersOnTop conn obstacles :=
  fun o ho => .inr ⟨o, ho, h o ho⟩

omit [Field K] [IsStrictOrderedRing K] in
theorem SecondCornersOnTop.crest_eq {conn : Connection K} {obstacles : List (Segment K)}
    (h : SecondCornersOnTop conn obstacles) :
    crest (fun o => max o.y1 o.y2) conn obstacles = crest Segment.y2 conn obstacles := by
  have hends : max conn.y1 conn.y2 ≤ crest Segment.y2 conn obstacles := (crest_le_iff.mp le_rfl).1
  apply le_antisymm
  · refine crest_le_iff.mpr ⟨hends, fun o ho => max_le ?_ (upper_le_crest ho)⟩
    rcases h o ho with hlow | ⟨o', ho', hlow⟩
    · exact hlow.trans hends
    · exact hlow.trans (upper_le_crest ho')
  · have hends' := crest_le_iff.mp (le_refl (crest (fun o : Segment K => max o.y1 o.y2) conn obstacles))
    exact crest_le_iff.mpr ⟨hends'.1, fun o ho => (le_max_right _ _).trans (hends'.2 o ho)⟩

theorem tryShoveWalkaround_eq (fmt : Routing.Format K) (conn : Connection K)
    (obstacles : List (Segment K)) (clearance : K)
    (h : anyOverlap conn.naive obstacles = true → SecondCornersOnTop conn obstacles) :
    { Native.tryShoveWalkaround fmt conn obstacles clearance with net_id := conn.net_id } =
      { walkaround fmt conn obstacles clearance with net_id := conn.net_id } := by
  unfold Native.tryShoveWalkaround walkaround
  by_cases hnaive : anyOverlap conn.naive obstacles = false
  · simp only [if_pos hnaive]
  · have hheight : Native.detourY conn obstacles clearance = detourY conn obstacles clearance := by
      rw [Native.detourY_eq, detourY_eq, (h (by simpa using hnaive)).crest_eq]
    simp only [if_neg hnaive, hheight]
    split <;> rfl

/-- Beyond its limits the kernel refuses; within them it gives what the fallback gives, where the second
corner of an obstacle is the upper one. -/
theorem routeShove_agree (fmt : Routing.Format K) (core_available : Bool)
    (connections : List (Connection K)) (obstacles : List (Segment K)) (clearance : K)
    (hclearance : 0 ≤ clearance) :
    (Native.MAX_SHOVE_CONNECTIONS < connections.length ∨ Native.MAX_SHOVE_OBSTACLES < obstacles.length →
      ∃ resource actual maximum, maximum < actual ∧
        Native.routeShove fmt connections obstacles clearance =
          .error (.resourceLimit resource actual maximum)) ∧
    (connections.length ≤ Native.MAX_SHOVE_CONNECTIONS → obstacles.length ≤ Native.MAX_SHOVE_OBSTACLES →
      (∀ conn ∈ connections, anyOverlap conn.naive obstacles = true → SecondCornersOnTop conn obstacles) →
      ∃ results, Native.routeShove fmt connections obstacles clearance = .ok results ∧
        routeShove fmt core_available connections obstacles clearance true = .ok results) := by
  constructor
  · intro hlimits
    unfold Native.routeShove Native.boundedLen
    by_cases hconnections : connections.length ≤ Native.MAX_SHOVE_CONNECTIONS
    · have hobstacles : Native.MAX_SHOVE_OBSTACLES < obstacles.length :=
        hlimits.resolve_left (not_lt.mpr hconnections)
      refine ⟨"shove_obstacles", _, _, hobstacles, ?_⟩
      rw [if_pos hconnections, if_neg (not_le.mpr hobstacles)]
      rfl
    · refine ⟨"shove_connections", _, _, not_le.mp hconnections, ?_⟩
      rw [if_neg hconnections]
      rfl
  · intro hconnections hobstacles htop
    refine ⟨_, ?_, routeShove_fallback fmt core_available connections obstacles hclearance⟩
    · unfold Native.routeShove Native.boundedLen Native.nonNegative
      rw [if_pos hconnections, if_pos hobstacles, if_pos hclearance]
      refine congrArg Except.ok (map_congr_left fun conn hconn => ?_)
      exact tryShoveWalkaround_eq fmt conn obstacles clearance (htop conn hconn)

/-- A connection across a box of which the upper corner comes first. -/
def crossing : Connection ℚ := ⟨0, 5, 20, 5, "NET_CROSS"⟩

def upperFirst : List (Segment ℚ) := [⟨5, 10, 15, 0⟩]

theorem routeShove_agree_crossing :
    ((Native.MAX_SHOVE_CONNECTIONS < 1 ∨ Native.MAX_SHOVE_OBSTACLES < 1 →
      ∃ resource actual maximum, maximum < actual ∧
        Native.routeShove plainFormat [crossing] [⟨5, 0, 15, 10⟩] (1 / 2) =
          .error (.resourceLimit resource actual maximum)) ∧
    (1 ≤ Native.MAX_SHOVE_CONNECTIONS → 1 ≤ Native.MAX_SHOVE_OBSTACLES →
      (∀ conn ∈ [crossing], anyOverlap conn.naive [⟨5, 0, 15, 10⟩] = true →
        SecondCornersOnTop conn [⟨5, 0, 15, 10⟩]) →
      ∃ results, Native.routeShove plainFormat [crossing] [⟨5, 0, 15, 10⟩] (1 / 2) = .ok results ∧
        routeShove plainFormat false [crossing] [⟨5, 0, 15, 10⟩] (1 / 2) true = .ok results)) ∧
    ∃ results, Native.routeShove plainFormat [crossing] [⟨5, 0, 15, 10⟩] (1 / 2) = .ok results ∧
      routeShove plainFormat false [crossing] [⟨5, 0, 15, 10⟩] (1 / 2) true = .ok results := by
  have hagree := routeShove_agree plainFormat false [crossing] [⟨5, 0, 15, 10⟩] (1 / 2)
    (by norm_num)
  refine ⟨hagree, hagree.2 (by decide) (by decide) fun conn _ _ => ?_⟩
  exact secondCornersOnTop_of_le (by simp) conn

/-- What the kernel and the fallback give is the same list. -/
def Agree (connections : List (Connection ℚ)) (obstacles : List (Segment ℚ)) (clearance : ℚ) : Prop :=
  ∃ results, Native.routeShove plainFormat connections obstacles clearance = .ok results ∧
    routeShove plainFormat false connections obstacles clearance true = .ok results

/-- One connection too many, and an obstacle with its upper corner first. -/
theorem not_agree :
    ¬ Agree (replicate 10001 crossing) [] (1 / 2) ∧ ¬ Agree [crossing] upperFirst (1 / 2) := by
  constructor
  · rintro ⟨results, hnative, -⟩
    have hlength := (Native.routeShove_eq_ok hnative).1
    rw [length_replicate] at hlength
    exact absurd hlength (by decide)
  · rintro ⟨results, hnative, hpython⟩
    rw [(Native.routeShove_eq_ok hnative).2.2.2] at hpython
    have hsegments := congrArg (Except.map fun rs => rs.map ShoveResult.segments) hpython
    revert hsegments
    with_unfolding_all decide

end ZapTrace.Shove
