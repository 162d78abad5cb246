import ZapTrace.Algo.GridOwnership

/-!
# Plans on one context

A net is planned on a copy of the obstacle map, so a plan that fails leaves the map as it was, wherever it fails. A plan
that succeeds gives the net cells that no net has. So in a run of plans on one context no cell goes from one net to
another, whatever the nets, their designs and their rules are, and in whatever order they come.

## Main results

* `keepsOwners_planGridNet`: one plan
* `calls_keep_owners`: a run of plans
-/

namespace ZapTrace

open GridRouter

/-- What a plan of a net leaves of the owners on a map. -/
structure KeepsOwners (net_id : String) (obs obs' : ObstacleMap) : Prop where
  reservations : ∀ p owner, owner ≠ net_id → (obs'.copper p = some owner ↔ obs.copper p = some owner)
  pads : obs'.pads = obs.pads
  pad_conflicts : obs'.pad_conflicts = obs.pad_conflicts
  kept : ∀ p owner, obs.copper p = some owner → obs'.copper p = some owner
  taken : ∀ p owner, obs.copper p = none → obs'.copper p = some owner → owner = net_id

theorem Grows.keepsOwners {net_id : String} {obs obs' : ObstacleMap} (h : Grows net_id obs obs') :
    KeepsOwners net_id obs obs' where
  reservations := fun p owner hne => by
    refine ⟨fun hp => ?_, h.kept p owner⟩
    exact (h.taken p owner hp).resolve_right hne
  pads := h.pads
  pad_conflicts := h.pad_conflicts
  kept := h.kept
  taken := fun p owner hnone hp => by
    refine (h.taken p owner hp).resolve_left fun hsome => ?_
    cases hnone.symm.trans hsome

/-- A call of `_plan_grid_net`. -/
structure PlanCall where
  kb : KnowledgeBase
  design : RoutedDesign
  net : Net

section Runs

variable {κ : Type} [Zero κ] [One κ] [Add κ] [Sub κ] [Mul κ] [IntCast κ] [LT κ] [DecidableLT κ]
variable (router : GridRouter κ) (pins : PinGeometry)

def PlanCall.plan (call : PlanCall) (context : GridRouteContext) : GridNetPlan × GridRouteContext :=
  planGridNet router call.kb pins call.design call.net context

def afterCalls (context : GridRouteContext) (calls : List PlanCall) : GridRouteContext :=
  calls.foldl (fun context call => (call.plan router pins context).2) context

variable {router pins}

/-- One plan: it leaves the map as it was, or keeps the owners. -/
theorem keepsOwners_planGridNet (call : PlanCall) (context : GridRouteContext) :
    ((call.plan router pins context).1.success = false →
        (call.plan router pins context).2.obstacles = context.obstacles) ∧
      ((call.plan router pins context).1.success = true →
        KeepsOwners call.net.id context.obstacles (call.plan router pins context).2.obstacles) :=
  ⟨fun h => congrArg GridRouteContext.obstacles (planGridNet_of_not_success h),
    fun _ => (grows_planGridNet call.net context).keepsOwners⟩

/-- What holds of the owners after a run of plans. -/
structure RunKeepsOwners (calls : List PlanCall) (obs obs' : ObstacleMap) : Prop where
  pads : obs'.pads = obs.pads
  pad_conflicts : obs'.pad_conflicts = obs.pad_conflicts
  kept : ∀ p owner, obs.copper p = some owner → obs'.copper p = some owner
  taken : ∀ p owner, obs.copper p = none → obs'.copper p = some owner → ∃ call ∈ calls, owner = call.net.id

theorem runKeepsOwners_afterCalls (context : GridRouteContext) (calls : List PlanCall) :
    RunKeepsOwners calls context.obstacles (afterCalls router pins context calls).obstacles := by
  induction calls generalizing context with
  | nil =>
    refine ⟨rfl, rfl, fun _ _ h => h, fun p owner hnone hp => ?_⟩
    cases hnone.symm.trans hp
  | cons call calls ih =>
    have hgrows : Grows call.net.id context.obstacles (call.plan router pins context).2.obstacles :=
      grows_planGridNet call.net context
    have hrest := ih (call.plan router pins context).2
    refine ⟨hrest.pads.trans hgrows.pads, hrest.pad_conflicts.trans hgrows.pad_conflicts, ?_, ?_⟩
    · exact fun p owner hp => hrest.kept p owner (hgrows.kept p owner hp)
    · intro p owner hnone hp
      -- the cell is taken by this call, or by one of the calls that follow
      cases hmid : (call.plan router pins context).2.obstacles.copper p with
      | none =>
        obtain ⟨later, hlater, howner⟩ := hrest.taken p owner hmid hp
        exact ⟨later, List.mem_cons_of_mem _ hlater, howner⟩
      | some owner' =>
        have heq : owner' = owner := Option.some.inj ((hrest.kept p owner' hmid).symm.trans hp)
        exact ⟨call, List.mem_cons_self, heq ▸ hgrows.keepsOwners.taken p owner' hnone hmid⟩

/-- **In a run of plans** a call that fails leaves the map as it was, a call that succeeds keeps owners, pads and
conflicts, and no cell goes from one net to another. -/
theorem calls_keep_owners (context : GridRouteContext) (calls : List PlanCall) :
    (∀ before call after, calls = before ++ call :: after →
      ((call.plan router pins (afterCalls router pins context before)).1.success = false →
        (afterCalls router pins context (before ++ [call])).obstacles =
          (afterCalls router pins context before).obstacles) ∧
      ((call.plan router pins (afterCalls router pins context before)).1.success = true →
        KeepsOwners call.net.id (afterCalls router pins context before).obstacles
          (afterCalls router pins context (before ++ [call])).obstacles)) ∧
    ∀ before after, calls = before ++ after →
      RunKeepsOwners after (afterCalls router pins context before).obstacles
        (afterCalls router pins context calls).obstacles := by
  constructor
  · intro before call after _
    have hafter : afterCalls router pins context (before ++ [call]) =
        (call.plan router pins (afterCalls router pins context before)).2 := List.foldl_concat _ _ _ _
    rw [hafter]
    exact keepsOwners_planGridNet call _
  · rintro before after rfl
    have hafter : afterCalls router pins context (before ++ after) =
        afterCalls router pins (afterCalls router pins context before) after := List.foldl_append
    rw [hafter]
    exact runKeepsOwners_afterCalls _ after

end Runs

end ZapTrace
