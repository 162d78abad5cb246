import ZapTrace.Algo.Ripup
import ZapTrace.Library.Service

/-!
# What a rip-up pass recovers

The pass serves the unrouted nets in rounds, in the order of their scores. A net that cannot be routed has the score
zero, so it comes after every net whose length does not round to zero, and takes the slot of such a net in no iteration.
Among nets of the score zero the names decide.

## Main results

* `executeRipupIteration_spec`, `rounds_iterations`: the iterations are rounds
* `foremost_scoreConflicts`: the order of a round
* `runRipupReroute_conserves`: each net is recovered once or remains, and with enough slots only nets remain that cannot
  be routed
-/

namespace ZapTrace.Ripup

open RipupIteration NetConflict List

open CopperPour (roundTo roundTo_mono roundTo_eq_self)
open Service

variable {sqrt : ℚ → ℚ} {positions : Positions} {config : RipupConfig}

/-! ## Scores -/

theorem foldl_add_nonneg {steps : List (ℚ × Segment)} (h : ∀ step ∈ steps, 0 ≤ step.1) {a : ℚ} (ha : 0 ≤ a) :
    0 ≤ steps.foldl (fun total step => total + step.1) a := by
  induction steps generalizing a with
  | nil => exact ha
  | cons step steps ih =>
    apply ih fun s hs => h s (mem_cons_of_mem _ hs)
    exact add_nonneg ha (h step mem_cons_self)

theorem closer_some (current : ℚ × ℚ) (best : ℚ × ℕ) (p : (ℚ × ℚ) × ℕ) :
    closer sqrt current (some best) p = some best ∨
      closer sqrt current (some best) p = some (distance sqrt p.1 current, p.2) := by
  by_cases hless : distance sqrt p.1 current < best.1
  · exact .inr (if_pos hless)
  · exact .inl (if_neg hless)

/-- The loop over the positions that are left finds one of them. -/
theorem nearest_mem {current : ℚ × ℚ} {remaining : List (ℚ × ℚ)} {best : ℚ × ℕ}
    (h : nearest sqrt current remaining = some best) :
    ∃ p ∈ remaining.zipIdx, best = (distance sqrt p.1 current, p.2) := by
  have hfold : ∀ (ps : List ((ℚ × ℚ) × ℕ)) (acc : Option (ℚ × ℕ)) (S : List ((ℚ × ℚ) × ℕ)), (∀ p ∈ ps, p ∈ S) →
      (∀ b, acc = some b → ∃ p ∈ S, b = (distance sqrt p.1 current, p.2)) →
      ∀ b, ps.foldl (closer sqrt current) acc = some b → ∃ p ∈ S, b = (distance sqrt p.1 current, p.2) := by
    intro ps
    induction ps with
    | nil => exact fun _ _ _ hacc => hacc
    | cons p ps ih =>
      intro acc S hS hacc
      apply ih _ S fun q hq => hS q (mem_cons_of_mem _ hq)
      intro b hb
      have hp : ∃ q ∈ S, (distance sqrt p.1 current, p.2) = (distance sqrt q.1 current, q.2) :=
        ⟨p, hS p mem_cons_self, rfl⟩
      cases acc with
      | none => exact Option.some.inj hb ▸ hp
      | some a =>
        rcases closer_some current a p with hkeep | htake
        · exact hacc b (hkeep.symm.trans hb)
        · rw [htake] at hb
          exact Option.some.inj hb ▸ hp
  exact hfold _ none _ (fun _ hp => hp) (fun _ hnone => by cases hnone) best h

theorem nearest_nonneg (hsqrt : ∀ x, 0 ≤ sqrt x) {current : ℚ × ℚ} {remaining : List (ℚ × ℚ)} {best : ℚ × ℕ}
    (h : nearest sqrt current remaining = some best) : 0 ≤ best.1 := by
  obtain ⟨p, _, rfl⟩ := nearest_mem h
  exact hsqrt _

theorem walk_nonneg (hsqrt : ∀ x, 0 ≤ sqrt x) (k : ℕ) (current : ℚ × ℚ) (remaining : List (ℚ × ℚ)) :
    ∀ step ∈ walk sqrt k current remaining, 0 ≤ step.1 := by
  induction k generalizing current remaining with
  | zero => simp [walk]
  | succ k ih =>
    unfold walk
    split
    · simp
    next best_distance best_index hnearest =>
      split
      · simp
      next next _ =>
        intro step hstep
        rcases mem_cons.mp hstep with rfl | hstep
        · exact nearest_nonneg hsqrt hnearest
        · exact ih _ _ step hstep

theorem estimate_nonneg (hsqrt : ∀ x, 0 ≤ sqrt x) (points : List (ℚ × ℚ)) :
    0 ≤ (estimateUnroutedGeometry sqrt points).1 := by
  unfold estimateUnroutedGeometry
  split
  · exact le_refl 0
  · apply foldl_add_nonneg _ (le_refl 0)
    cases points with
    | nil => simp [walkFrom]
    | cons current remaining => exact walk_nonneg hsqrt _ _ _

def lengthOf (sqrt : ℚ → ℚ) (positions : Positions) (net : String) : ℚ :=
  roundTo 4 (estimateUnroutedGeometry sqrt ((positions.get? net).getD [])).1

theorem roundTo_zero : roundTo 4 0 = 0 := roundTo_eq_self (n := 0) 4 (by norm_num)

theorem lengthOf_le_score (hsqrt : ∀ x, 0 ≤ sqrt x) (table : RouteTable) (net : String) :
    lengthOf sqrt positions net ≤ (conflictOf sqrt table positions net).conflict_score := by
  apply roundTo_mono
  apply le_mul_of_one_le_right (estimate_nonneg hsqrt _)
  exact le_add_of_nonneg_right (Nat.cast_nonneg _)

theorem score_nonneg (hsqrt : ∀ x, 0 ≤ sqrt x) (table : RouteTable) (net : String) :
    0 ≤ (conflictOf sqrt table positions net).conflict_score := by
  refine le_trans ?_ (lengthOf_le_score hsqrt table net)
  calc (0 : ℚ) = roundTo 4 0 := roundTo_zero.symm
    _ ≤ lengthOf sqrt positions net := roundTo_mono 4 (estimate_nonneg hsqrt _)

theorem routable_eq_false_iff {net : String} :
    routable positions net = false ↔ ((positions.get? net).getD []).length < 2 := by
  rw [routable, decide_eq_false_iff_not, not_le]

theorem score_of_not_routable (sqrt : ℚ → ℚ) (table : RouteTable) {net : String} (h : routable positions net = false) :
    (conflictOf sqrt table positions net).conflict_score = 0 := by
  have hfew := routable_eq_false_iff.mp h
  unfold conflictOf estimateUnroutedGeometry
  rw [if_pos hfew]
  show roundTo 4 (0 * _) = 0
  rw [zero_mul, roundTo_zero]

/-! ## The order of a round -/

/-- A net that can be routed has a length that does not round to zero, or the name before those that cannot. -/
def Separated (sqrt : ℚ → ℚ) (positions : Positions) (nets : List String) : Prop :=
  ∀ net ∈ nets, ∀ net' ∈ nets, routable positions net = true → routable positions net' = false →
    0 < lengthOf sqrt positions net ∨ net < net'

instance : IsTrans NetConflict ComesFirst where
  trans a b c := by
    rintro (hab | ⟨hab, hab'⟩) (hbc | ⟨hbc, hbc'⟩)
    · exact .inl (hbc.trans hab)
    · exact .inl (hbc ▸ hab)
    · exact .inl (hab ▸ hbc)
    · exact .inr ⟨hab.trans hbc, hab'.trans hbc'⟩

instance : Std.Total ComesFirst where
  total a b := by
    rcases lt_trichotomy a.conflict_score b.conflict_score with hlt | heq | hgt
    · exact .inr (.inl hlt)
    · rcases le_total a.net_name b.net_name with hle | hle
      · exact .inl (.inr ⟨heq, hle⟩)
      · exact .inr (.inr ⟨heq.symm, hle⟩)
    · exact .inl (.inl hgt)

def orderOf (sqrt : ℚ → ℚ) (nets : List String) (table : RouteTable) (positions : Positions) : List String :=
  (scoreConflicts sqrt nets table positions).map net_name

theorem orderOf_perm (sqrt : ℚ → ℚ) (positions : Positions) (nets : List String) (table : RouteTable) :
    (orderOf sqrt nets table positions).Perm nets := by
  have hsort := (perm_insertionSort ComesFirst (nets.map (conflictOf sqrt table positions))).map
    net_name
  rwa [map_map, show net_name ∘ conflictOf sqrt table positions = id from rfl, map_id] at hsort

/-- **Nets that can be routed come first**, when they are separated from the others. -/
theorem foremost_scoreConflicts (hsqrt : ∀ x, 0 ≤ sqrt x) {nets : List String} (hsep : Separated sqrt positions nets)
    (table : RouteTable) : Foremost (routable positions) (orderOf sqrt nets table positions) := by
  apply pairwise_map.mpr
  refine List.Pairwise.imp_of_mem ?_ (pairwise_insertionSort ComesFirst _)
  intro a b ha hb hab hready
  obtain ⟨net', hnet', rfl⟩ := mem_map.mp ((mem_insertionSort _).mp ha)
  obtain ⟨net, hnet, rfl⟩ := mem_map.mp ((mem_insertionSort _).mp hb)
  by_contra hnot
  have hnot' : routable positions net' = false := Bool.eq_false_iff.mpr hnot
  have hzero := score_of_not_routable sqrt table hnot'
  rcases hab with hless | ⟨heq, hname⟩
  · rw [hzero] at hless
    exact absurd hless (not_lt.mpr (score_nonneg hsqrt table net))
  · rcases hsep net hnet net' hnet' hready hnot' with hlong | hbefore
    · have hscore := hlong.trans_le (lengthOf_le_score hsqrt table net)
      rw [← heq, hzero] at hscore
      exact lt_irrefl _ hscore
    · exact absurd hname (not_le.mpr hbefore)

/-! ## One iteration -/

theorem rerouteSelectedNets_spec (selected : List String) (table : RouteTable) :
    (rerouteSelectedNets sqrt selected positions table).1 =
      (selected.filter (routable positions), selected.filter fun net => !routable positions net) := by
  have hone : ∀ (out : (List String × List String) × RouteTable) (net : String),
      (rerouteOne sqrt positions out net).1 =
        if routable positions net = true then (out.1.1 ++ [net], out.1.2) else (out.1.1, out.1.2 ++ [net]) := by
    intro out net
    unfold rerouteOne
    cases hready : routable positions net with
    | false => cases attemptRouteNet sqrt ((positions.get? net).getD []) <;> rfl
    | true =>
      have hmany : ¬ ((positions.get? net).getD []).length < 2 := not_lt.mpr (of_decide_eq_true hready)
      rw [attemptRouteNet, if_neg hmany]
      rfl
  unfold rerouteSelectedNets
  induction selected using reverseRecOn with
  | nil => rfl
  | append_singleton selected net ih =>
    rw [foldl_concat, hone, ih, filter_append, filter_append]
    cases hready : routable positions net <;> simp [hready]

theorem upTo_of_pos {α : Type} {m : ℤ} (hm : 1 ≤ m) (xs : List α) : upTo m xs = xs.take m.toNat :=
  if_pos (by omega)

/-- The nets that an iteration rips up. -/
def taken (sqrt : ℚ → ℚ) (state : RipupState) (positions : Positions) (config : RipupConfig) : List String :=
  (orderOf sqrt state.current_unrouted state.route_table positions).take config.max_rip_per_iter.toNat

/-- **What an iteration does**: the nets that it rips up are recovered or put back. -/
theorem executeRipupIteration_spec (sqrt : ℚ → ℚ) (positions : Positions) (hrip : 1 ≤ config.max_rip_per_iter)
    (state : RipupState) (iteration_num : ℕ) :
    let state' := executeRipupIteration sqrt state positions config iteration_num
    let done := (taken sqrt state positions config).filter (routable positions)
    state'.current_unrouted = left (routable positions) state.current_unrouted (taken sqrt state positions config) ∧
    state'.current_routed = state.current_routed + done.length ∧
    state'.iterations_done.flatMap nets_recovered =
      state.iterations_done.flatMap nets_recovered ++ done := by
  have hselected : (selectNetsToRip (scoreConflicts sqrt state.current_unrouted state.route_table positions) config
      iteration_num state.route_table).1 = taken sqrt state positions config := by
    show (upTo config.max_rip_per_iter _).map net_name = _
    rw [upTo_of_pos hrip, map_take]
    rfl
  simp only [executeRipupIteration, hselected, rerouteSelectedNets_spec, flatMap_append, flatMap_singleton]
  exact ⟨rfl, trivial, trivial⟩

/-! ## The iterations -/

/-- **The iterations are rounds.** -/
theorem rounds_iterations (sqrt : ℚ → ℚ) (positions : Positions) (hrip : 1 ≤ config.max_rip_per_iter)
    (total_nets : ℤ) (elapsed : ℕ → ℚ) (k : ℕ) :
    ∀ (iteration_num : ℕ) (state : RipupState), ∃ orders done,
      let state' := iterations sqrt positions config total_nets elapsed k iteration_num state
      Rounds (routable positions) config.max_rip_per_iter.toNat orders state.current_unrouted done
        state'.current_unrouted ∧
      (∀ order ∈ orders, ∃ nets table, (∀ net ∈ nets, net ∈ state.current_unrouted) ∧
        order = orderOf sqrt nets table positions) ∧
      state'.current_routed = state.current_routed + done.length ∧
      state'.iterations_done.flatMap nets_recovered =
        state.iterations_done.flatMap nets_recovered ++ done ∧
      (config.min_improvement = 0 → (∀ i, elapsed i < config.max_seconds) →
        state'.current_unrouted = [] ∨ orders.length = k) := by
  induction k with
  | zero =>
    intro iteration_num state
    exact ⟨[], [], .nil _, by simp, by simp [iterations], by simp [iterations], fun _ _ => .inr rfl⟩
  | succ k ih =>
    intro iteration_num state
    unfold iterations
    split
    next hlate => exact ⟨[], [], .nil _, by simp, by simp, by simp,
        fun _ htime => absurd hlate (not_le.mpr (htime iteration_num))⟩
    next =>
      obtain ⟨hunrouted, hrouted, hdone⟩ :=
        executeRipupIteration_spec sqrt positions hrip state iteration_num
      have hperm := orderOf_perm sqrt positions state.current_unrouted state.route_table
      set state₁ := executeRipupIteration sqrt state positions config iteration_num
      simp only
      split
      next hstop =>
        have hrest : Rounds (routable positions) config.max_rip_per_iter.toNat []
            (left (routable positions) state.current_unrouted (taken sqrt state positions config)) []
            state₁.current_unrouted := by
          rw [hunrouted]
          exact .nil _
        refine ⟨[orderOf sqrt state.current_unrouted state.route_table positions], _, .cons hperm hrest, ?_, ?_, ?_, ?_⟩
        · intro order horder
          exact ⟨_, _, fun _ h => h, mem_singleton.mp horder⟩
        · rw [append_nil]
          exact hrouted
        · rw [append_nil]
          exact hdone
        · intro hmin _
          -- without a minimum only an empty pool stops the pass
          left
          by_contra hsome
          rw [stopAfterIteration, if_neg hsome, hmin] at hstop
          exact absurd (of_decide_eq_true hstop).1 (lt_irrefl _)
      next =>
        obtain ⟨orders, done, hrounds, horders, hrouted', hdone', hend⟩ := ih (iteration_num + 1) state₁
        refine ⟨orderOf sqrt state.current_unrouted state.route_table positions :: orders, _,
          .cons hperm (hunrouted ▸ hrounds), ?_, ?_, ?_, ?_⟩
        · intro order horder
          rcases mem_cons.mp horder with rfl | horder
          · exact ⟨_, _, fun _ h => h, rfl⟩
          · obtain ⟨nets, table, hnets, heq⟩ := horders order horder
            refine ⟨nets, table, fun net hnet => ?_, heq⟩
            have hmem := hnets net hnet
            rw [hunrouted] at hmem
            rcases mem_append.mp hmem with hmem | hmem
            · exact (mem_filter.mp hmem).1
            · exact hperm.mem_iff.mp (mem_of_mem_take (mem_filter.mp hmem).1)
        · rw [hrouted', hrouted, length_append]
          push_cast
          unfold taken
          ring
        · rw [hdone', hdone, append_assoc]
          rfl
        · intro hmin htime
          rw [length_cons]
          exact (hend hmin htime).imp id (congrArg Nat.succ)

/-! ## The pass -/

/-- The nets that the iterations of a pass recover, in their order. -/
def RipupResult.recovered (r : RipupResult) : List String := r.iterations.flatMap nets_recovered

def RipupResult.remaining (r : RipupResult) : List String := r.remaining_conflicts.map net_name

section Pass

variable (design_name : String) {unrouted_nets : List String} (routed_nets total_nets : ℤ)
  (node_positions : Option Positions) (config : Option RipupConfig) (initial_route_table : Option RouteTable)
  {elapsed : ℕ → ℚ} (elapsed_total : ℚ)

/-- **Nets are conserved.** Each net is recovered once or remains, and the recovered ones are counted. With enough slots
exactly the nets remain that cannot be routed, when these are separated from the others. -/
theorem runRipupReroute_conserves (sqrt : ℚ → ℚ) (hsqrt : ∀ x, 0 ≤ sqrt x) (hnodup : unrouted_nets.Nodup)
    (hrip : 1 ≤ (config.getD DEFAULT_RIPUP_CONFIG).max_rip_per_iter)
    (hmin : (config.getD DEFAULT_RIPUP_CONFIG).min_improvement = 0)
    (htime : ∀ i, elapsed i < (config.getD DEFAULT_RIPUP_CONFIG).max_seconds) :
    let r := runRipupReroute sqrt design_name unrouted_nets routed_nets total_nets node_positions config
      initial_route_table elapsed elapsed_total
    (r.recovered ++ r.remaining).Perm unrouted_nets ∧
    r.routed_nets_after = routed_nets + r.recovered.length ∧
    (unrouted_nets.length ≤ (config.getD DEFAULT_RIPUP_CONFIG).max_iterations *
        (config.getD DEFAULT_RIPUP_CONFIG).max_rip_per_iter →
      Separated sqrt (node_positions.getD Dict.empty) unrouted_nets →
      ∀ net ∈ unrouted_nets,
        net ∈ r.remaining ↔ (((node_positions.getD Dict.empty).get? net).getD []).length < 2) := by
  intro r
  by_cases hempty : unrouted_nets = []
  · have hr : r = skippedRipupResult design_name routed_nets total_nets (config.getD DEFAULT_RIPUP_CONFIG) :=
      if_pos hempty
    rw [hr, hempty]
    exact ⟨List.Perm.refl [], (add_zero routed_nets).symm, by simp⟩
  · obtain ⟨orders, done, hrounds, horders, hrouted, hdone, hend⟩ :=
      rounds_iterations sqrt (node_positions.getD Dict.empty) hrip total_nets elapsed
        (config.getD DEFAULT_RIPUP_CONFIG).max_iterations.toNat 1
        (startState unrouted_nets routed_nets initial_route_table)
    have hfinal : r = finalizeRipupResult sqrt design_name _ routed_nets total_nets _ _ elapsed_total := if_neg hempty
    set state := iterations sqrt (node_positions.getD Dict.empty) (config.getD DEFAULT_RIPUP_CONFIG) total_nets elapsed
      (config.getD DEFAULT_RIPUP_CONFIG).max_iterations.toNat 1
      (startState unrouted_nets routed_nets initial_route_table)
    have hrecovered : r.recovered = done := by
      rw [hfinal]
      exact hdone
    have hremaining : r.remaining.Perm state.current_unrouted := by
      rw [hfinal]
      exact orderOf_perm _ _ _ _
    refine ⟨?_, ?_, ?_⟩
    · rw [hrecovered]
      exact (hremaining.append_left done).trans (hrounds.perm hnodup)
    · rw [hrecovered, hfinal]
      exact hrouted
    · intro henough hsep net hnet
      rw [hremaining.mem_iff, ← routable_eq_false_iff]
      apply hrounds.mem_left_iff hnodup _ hnet
      rcases hend hmin htime with hnone | hlength
      · rw [hnone]
        rfl
      · have hforemost : ∀ order ∈ orders, Foremost (routable (node_positions.getD Dict.empty)) order := by
          intro order horder
          obtain ⟨nets, table, hnets, rfl⟩ := horders order horder
          exact foremost_scoreConflicts hsqrt
            (fun a ha b hb => hsep a (hnets a ha) b (hnets b hb)) table
        rw [hrounds.countP_left hnodup hforemost, hlength]
        apply Nat.sub_eq_zero_of_le
        calc unrouted_nets.countP (routable (node_positions.getD Dict.empty)) ≤ unrouted_nets.length :=
              countP_le_length
          _ ≤ _ := by
            zify
            refine henough.trans ?_
            rw [Int.toNat_of_nonneg (by omega : 0 ≤ (config.getD DEFAULT_RIPUP_CONFIG).max_rip_per_iter)]
            exact mul_le_mul_of_nonneg_right (Int.self_le_toNat _) (by omega)

end Pass

/-- Two nets, one in each iteration. -/
def oneByOne : RipupConfig := { max_iterations := 2, max_rip_per_iter := 1 }

/-- The net `A` has no position, and `B` has two. -/
def twoPositions (p q : ℚ × ℚ) : Positions := Dict.ofItems [("B", [p, q])]

theorem separated_apart : Separated abs (twoPositions (0, 0) (1, 0)) ["A", "B"] := by
  unfold Separated
  with_unfolding_all decide

theorem runRipupReroute_conserves_twoPositions :
    let r := runRipupReroute abs "board" ["A", "B"] 3 5 (some (twoPositions (0, 0) (1, 0))) (some oneByOne) none
      (fun _ => 0) 0
    (r.recovered ++ r.remaining).Perm ["A", "B"] ∧ r.routed_nets_after = 3 + r.recovered.length ∧
      ∀ net ∈ ["A", "B"], net ∈ r.remaining ↔ (((twoPositions (0, 0) (1, 0)).get? net).getD []).length < 2 := by
  intro r
  have hbudget : 0 < oneByOne.max_seconds := by decide
  have htime : ∀ i : ℕ, (fun _ => 0 : ℕ → ℚ) i < oneByOne.max_seconds := fun _ => hbudget
  obtain ⟨hperm, hrouted, hremaining⟩ := runRipupReroute_conserves "board" 3 5 (some (twoPositions (0, 0) (1, 0)))
    (some oneByOne) none 0 abs abs_nonneg (by decide : ["A", "B"].Nodup) (by decide) rfl htime
  exact ⟨hperm, hrouted, hremaining (by decide) separated_apart⟩

/-- A net whose positions are in one place scores nothing. The net `A` comes before it in each iteration and takes the
only slot. -/
theorem not_remaining_iff_samePlace :
    let r := runRipupReroute abs "board" ["A", "B"] 3 5 (some (twoPositions (0, 0) (0, 0))) (some oneByOne) none
      (fun _ => 0) 0
    (["A", "B"] : List String).Nodup ∧ 1 ≤ oneByOne.max_rip_per_iter ∧ 0 < oneByOne.cost_inflation ∧
      oneByOne.min_improvement = 0 ∧ 0 < oneByOne.max_seconds ∧
      2 ≤ oneByOne.max_iterations * oneByOne.max_rip_per_iter ∧
      ¬ ∀ net ∈ ["A", "B"], net ∈ r.remaining ↔
        (((twoPositions (0, 0) (0, 0)).get? net).getD []).length < 2 := by
  with_unfolding_all decide

end ZapTrace.Ripup
