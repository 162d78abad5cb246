import ZapTrace.Proof.RunChecks

/-!
# The order of the checks of a proof pack

Four checks replace the references of the routing by identifiers: the design rule check, the check for unrouted nets,
the check of pads and the manufacturing check. Three read them as they are written: the clearance check, the analysis
of signal integrity and the design rule check itself. So the result of a check depends on the checks before it where
one of these reads a reference that another replaces. Where none does, the checks only take the design from one stage
to the next: as it is, with references replaced, with nets classified.

## Main results

* `findClearanceViolations_replaceRefs_iff`: what the clearance check reports before and after the replacement
* `orderIndependent_of_undisturbed`: the results of an undisturbed list do not depend on its order
* `orderIndependent_iff_undisturbed`: when the results of a list do not depend on its order
-/

set_option linter.unusedSectionVars false

namespace ZapTrace.Proof

open Plane Routing Routing.Drc List

variable {K Ω Profile : Type} [Field K] [LinearOrder K] (analyses : Analyses K Ω Profile)

def Replaces (check : CheckRequest K) : Prop :=
  match registry check.type with
  | some .drc => True
  | some .routed => True
  | some .footprint_pads_mapped => True
  | some .dfm => (analyses.load_profile check.profile).isSome
  | _ => False

def ReadsAsWritten (check : CheckRequest K) : Prop :=
  registry check.type = some .drc ∨ registry check.type = some .signal_integrity

/-- Two traces have one reference that is not empty, both as written and replaced. -/
def StaySameNet (nets : Dict String (Routing.Net K)) (t1 t2 : Routing.TraceSegment K) : Prop :=
  Dfm.SameNet t1 t2 ∧ Dfm.SameNet (normalizeTrace nets t1) (normalizeTrace nets t2)

/-- Of two traces that are near each other, and not of one net throughout, neither has a reference that is
replaced. -/
def Untouched (design : Design K) (m : K) : Prop :=
  ∀ pair ∈ tracePairs (traceSegments design), EndNear m pair.1 pair.2 → ¬ StaySameNet design.nets pair.1 pair.2 →
    Identified design.nets pair.1 ∧ Identified design.nets pair.2

/-- No check of the list reads a reference that is replaced. -/
structure Unmixed (checks : List (CheckRequest K)) (design : Design K) : Prop where
  settled : Settled design
  clearance : ∀ check ∈ checks, registry check.type = some .clearance → Untouched design check.minClearance
  as_written : (∃ check ∈ checks, ReadsAsWritten check) → ∀ seg ∈ traceSegments design, Identified design.nets seg

/-- The list is of at most one check, or no check of it reads a reference that another one replaces. -/
def Undisturbed (checks : List (CheckRequest K)) (design : Design K) : Prop :=
  checks.length ≤ 1 ∨ ((∃ check ∈ checks, Replaces analyses check) → Unmixed checks design)

/-! ## The clearance check and the references -/

section Clearance

variable [IsStrictOrderedRing K] (fmt : Format K) {design : Design K}

theorem tracePairs_map {α β : Type} (f : α → β) (xs : List α) :
    tracePairs (xs.map f) = (tracePairs xs).map fun pair => (f pair.1, f pair.2) := by
  induction xs with
  | nil => rfl
  | cons x xs ih =>
    rw [map_cons, tracePairs, ih, tracePairs, map_append, map_map, map_map]
    rfl

theorem endNear_normalizeTrace (nets : Dict String (Routing.Net K)) (m : K) (t1 t2 : Routing.TraceSegment K) :
    EndNear m (normalizeTrace nets t1) (normalizeTrace nets t2) ↔ EndNear m t1 t2 := by
  rw [normalizeTrace_eq, normalizeTrace_eq]
  rfl

theorem clearanceViolation_eq_some {m : K} {t1 t2 : Routing.TraceSegment K} {violation : ClearanceViolation K}
    (h : clearanceViolation fmt m t1 t2 = some violation) :
    violation.trace1 = t1.net_id ∧ violation.trace2 = t2.net_id := by
  unfold clearanceViolation at h
  split at h
  · cases h
  · split at h
    · cases h
    · cases h
      exact ⟨rfl, rfl⟩

/-- **What the clearance check reports is the same after the replacement** exactly when it sees no reference that is
replaced. -/
theorem findClearanceViolations_replaceRefs_iff (hsettled : Settled design) (m : K) :
    findClearanceViolations fmt (replaceRefs design) m = findClearanceViolations fmt design m ↔ Untouched design m := by
  have hafter : findClearanceViolations fmt (replaceRefs design) m =
      (tracePairs (traceSegments design)).filterMap fun pair =>
        clearanceViolation fmt m (normalizeTrace design.nets pair.1) (normalizeTrace design.nets pair.2) := by
    show (tracePairs (traceSegments (replaceRefs design))).filterMap _ = _
    rw [traceSegments_replaceRefs, tracePairs_map, filterMap_map]
    rfl
  have hbefore : findClearanceViolations fmt design m =
      (tracePairs (traceSegments design)).filterMap fun pair => clearanceViolation fmt m pair.1 pair.2 := rfl
  have hsame : ∀ pair : Routing.TraceSegment K × Routing.TraceSegment K,
      Identified design.nets pair.1 ∧ Identified design.nets pair.2 →
        clearanceViolation fmt m (normalizeTrace design.nets pair.1) (normalizeTrace design.nets pair.2) =
          clearanceViolation fmt m pair.1 pair.2 := by
    rintro pair ⟨hfirst, hsecond⟩
    rw [normalizeTrace_of_identified hfirst, normalizeTrace_of_identified hsecond]
  rw [hafter, hbefore]
  constructor
  · intro heq
    -- a violation names traces, and after the replacement only by identifiers
    have hnamed : ∀ pair ∈ tracePairs (traceSegments design), ∀ violation,
        clearanceViolation fmt m pair.1 pair.2 = some violation →
          Identified design.nets pair.1 ∧ Identified design.nets pair.2 := by
      intro pair hpair violation hviolation
      have hmem : violation ∈ (tracePairs (traceSegments design)).filterMap
          fun pair => clearanceViolation fmt m pair.1 pair.2 :=
        mem_filterMap.mpr ⟨pair, hpair, hviolation⟩
      rw [← heq] at hmem
      obtain ⟨other, hother, hnormal⟩ := mem_filterMap.mp hmem
      obtain ⟨hother1, hother2⟩ := mem_of_mem_tracePairs hother
      have hid1 := hsettled.identified other.1 hother1
      have hid2 := hsettled.identified other.2 hother2
      obtain ⟨htrace1, htrace2⟩ := clearanceViolation_eq_some fmt hviolation
      obtain ⟨hname1, hname2⟩ := clearanceViolation_eq_some fmt hnormal
      unfold Identified at hid1 hid2 ⊢
      rw [← htrace1, ← htrace2, hname1, hname2]
      exact ⟨hid1, hid2⟩
    have hkept : ∀ pair ∈ tracePairs (traceSegments design), clearanceViolation fmt m pair.1 pair.2 ≠ none →
        clearanceViolation fmt m (normalizeTrace design.nets pair.1) (normalizeTrace design.nets pair.2) =
          clearanceViolation fmt m pair.1 pair.2 := by
      intro pair hpair hsome
      obtain ⟨violation, hviolation⟩ := Option.ne_none_iff_exists'.mp hsome
      exact hsame pair (hnamed pair hpair violation hviolation)
    have hall := Lists.filterMap_eq_of_length hkept (congrArg length heq.symm)
    intro pair hpair hnear hnet
    cases hviolation : clearanceViolation fmt m pair.1 pair.2 with
    | some violation => exact hnamed pair hpair violation hviolation
    | none =>
      -- both are of one net, before and after
      have hagain := (hall pair hpair).trans hviolation
      have hfirst : Dfm.SameNet pair.1 pair.2 :=
        not_not.mp fun hdiff => (clearanceViolation_eq_none_iff fmt).mp hviolation ⟨hdiff, hnear⟩
      have hsecond : Dfm.SameNet (normalizeTrace design.nets pair.1) (normalizeTrace design.nets pair.2) :=
        not_not.mp fun hdiff => (clearanceViolation_eq_none_iff fmt).mp hagain
          ⟨hdiff, (endNear_normalizeTrace _ _ _ _).mpr hnear⟩
      exact absurd ⟨hfirst, hsecond⟩ hnet
  · intro huntouched
    apply filterMap_congr
    intro pair hpair
    by_cases hnear : EndNear m pair.1 pair.2
    · by_cases hnet : StaySameNet design.nets pair.1 pair.2
      · rw [(clearanceViolation_eq_none_iff fmt).mpr fun h => h.1 hnet.1,
          (clearanceViolation_eq_none_iff fmt).mpr fun h => h.1 hnet.2]
      · exact hsame pair (huntouched pair hpair hnear hnet)
    · have hfar : ¬ EndNear m (normalizeTrace design.nets pair.1) (normalizeTrace design.nets pair.2) :=
        fun h => hnear ((endNear_normalizeTrace _ _ _ _).mp h)
      rw [(clearanceViolation_eq_none_iff fmt).mpr fun h => hnear h.2,
        (clearanceViolation_eq_none_iff fmt).mpr fun h => hfar h.2]

end Clearance

/-! ## Stages -/

section Stages

variable {design : Design K}

/-- A design that differs from the replaced one in its classes only, and of which nothing more is replaced. -/
structure After (design after : Design K) : Prop where
  classless : classless after = classless (replaceRefs design)
  replaced : replaceRefs after = after

variable {after : Design K}

theorem After.traces (h : After design after) : traceSegments after = traceSegments (replaceRefs design) := by
  have hread := congrArg (fun design : Design K => traceSegments design) h.classless
  exact hread

theorem After.nets (h : After design after) : after.nets = design.nets := by
  have hread := congrArg (fun design : Design K => design.nets) h.classless
  exact hread

theorem After.content (h : After design after) : content after = content design := by
  have hread := congrArg (fun design : Design K => Proof.content design) h.classless
  exact hread

theorem After.components (h : After design after) : after.components = design.components := by
  have hread := congrArg (fun design : Design K => design.components) h.classless
  exact hread

theorem After.tracesOnly (h : After design after) : tracesOnly after = tracesOnly (replaceRefs design) := by
  have hread := congrArg (fun design : Design K => Proof.tracesOnly design) h.classless
  exact hread

theorem after_replaceRefs (h : Settled design) : After design (replaceRefs design) :=
  ⟨rfl, replaceRefs_replaceRefs h⟩

theorem tracesOnly_replaceRefs (h : ∀ seg ∈ traceSegments design, Identified design.nets seg) :
    tracesOnly (replaceRefs design) = tracesOnly design := by
  have htraces := traceSegments_replaceRefs_of_identified h
  obtain ⟨components, nets, board, board_def, placement, routing, classes, pours⟩ := design
  cases routing with
  | none => rfl
  | some routing =>
    have hmap : routing.traces.map (normalizeTrace nets) = routing.traces := htraces
    show Design.mk components nets board board_def placement
      (some { traces := routing.traces.map (normalizeTrace nets), vias := [] }) none pours = _
    rw [hmap]
    rfl

variable [IsStrictOrderedRing K]

variable {check : CheckRequest K}

/-- A check other than that of the design rules reports the same on a design of a later stage, and leaves it. -/
theorem outcomeOf_after (hsettled : Settled design) (h : After design after) (hdrc : registry check.type ≠ some .drc)
    (hclearance : registry check.type = some .clearance → Untouched design check.minClearance)
    (hwritten : registry check.type = some .signal_integrity → ∀ seg ∈ traceSegments design, Identified design.nets seg) :
    outcomeOf analyses check after = ((outcomeOf analyses check design).1, after) := by
  unfold outcomeOf
  cases hbuiltin : registry check.type with
  | none => rfl
  | some builtin =>
    cases builtin with
    | drc => exact absurd hbuiltin hdrc
    | erc =>
      show (checkErc analyses after check, after) = (checkErc analyses design check, after)
      unfold checkErc
      rw [h.content]
    | routed =>
      show checkRouted after = ((checkRouted design).1, after)
      unfold checkRouted
      dsimp only
      rw [h.replaced, h.traces, h.nets]
      rfl
    | clearance =>
      have hreplaced := (findClearanceViolations_replaceRefs_iff analyses.fmt hsettled _).mpr (hclearance hbuiltin)
      have hviolations : findClearanceViolations analyses.fmt after check.minClearance =
          findClearanceViolations analyses.fmt design check.minClearance := by
        rw [← hreplaced]
        show (tracePairs (traceSegments after)).filterMap _ = (tracePairs (traceSegments (replaceRefs design))).filterMap _
        rw [h.traces]
      show (clearanceOutcome analyses after check, after) = (clearanceOutcome analyses design check, after)
      unfold clearanceOutcome checkClearance
      dsimp only
      rw [hviolations]
    | footprint_exists =>
      show (checkFootprintExists analyses after, after) = (checkFootprintExists analyses design, after)
      unfold checkFootprintExists
      rw [h.components]
    | footprint_pads_mapped =>
      show checkFootprintPadsMapped analyses after = ((checkFootprintPadsMapped analyses design).1, after)
      unfold checkFootprintPadsMapped
      rw [h.content, h.replaced]
    | net_connected =>
      show (checkNetConnected after check, after) = (checkNetConnected design check, after)
      unfold checkNetConnected
      rw [h.nets]
    | spice =>
      show (analyses.spice (content after), after) = _
      rw [h.content]
      rfl
    | signal_integrity =>
      show (analyses.signal_integrity (tracesOnly after), after) = _
      rw [h.tracesOnly, tracesOnly_replaceRefs (hwritten hbuiltin)]
      rfl
    | thermal =>
      show (analyses.thermal (content after), after) = _
      rw [h.content]
      rfl
    | kicad_erc => rfl
    | kicad_drc => rfl
    | dfm =>
      show checkDfm analyses after check = ((checkDfm analyses design check).1, after)
      have hagain := replaceRefs_replaceRefs hsettled
      unfold checkDfm
      cases analyses.load_profile check.profile with
      | none => rfl
      | some profile =>
        dsimp only
        rw [h.replaced, h.replaced, h.replaced, h.replaced, hagain, hagain, hagain, h.classless, h.content]

theorem outcomeOf_snd_of_replaces (hsettled : Settled design) (hdrc : registry check.type ≠ some .drc)
    (hreplaces : Replaces analyses check) : (outcomeOf analyses check design).2 = replaceRefs design := by
  unfold Replaces at hreplaces
  unfold outcomeOf
  cases hbuiltin : registry check.type with
  | none =>
    rw [hbuiltin] at hreplaces
    exact hreplaces.elim
  | some builtin =>
    rw [hbuiltin] at hreplaces
    cases builtin with
    | drc => exact absurd hbuiltin hdrc
    | routed => rfl
    | footprint_pads_mapped => rfl
    | dfm =>
      obtain ⟨profile, hprofile⟩ := Option.isSome_iff_exists.mp hreplaces
      have hagain := replaceRefs_replaceRefs hsettled
      show (checkDfm analyses design check).2 = _
      unfold checkDfm
      rw [hprofile]
      dsimp only
      rw [hagain, hagain, hagain]
    | _ => exact hreplaces.elim

theorem outcomeOf_snd_of_not_replaces (h : ¬ Replaces analyses check) :
    (outcomeOf analyses check design).2 = design := by
  unfold Replaces at h
  unfold outcomeOf
  cases hbuiltin : registry check.type with
  | none => rfl
  | some builtin =>
    rw [hbuiltin] at h
    cases builtin with
    | drc => exact absurd trivial h
    | routed => exact absurd trivial h
    | footprint_pads_mapped => exact absurd trivial h
    | dfm =>
      have hprofile : analyses.load_profile check.profile = none := Option.not_isSome_iff_eq_none.mp h
      show (checkDfm analyses design check).2 = _
      unfold checkDfm
      rw [hprofile]
    | _ => rfl

/-! ### The design rule check -/

theorem enables_engine (rule_id : String) : analyses.engine.Enables rule_id := fun _ hrules => nomatch hrules

theorem after_run (h : Settled design) : After design (analyses.engine.run design).2 := by
  obtain ⟨start, hstart⟩ : ∃ start, start = ensureClassified analyses.engine.classifier design := ⟨_, rfl⟩
  have hleft : (analyses.engine.run design).2 = analyses.engine.finished start := by
    rw [hstart]
    exact @runChecks_snd K _ _ analyses.engine _
  have hreplace : analyses.engine.replaced start = replaceRefs start := if_pos (enables_engine analyses _)
  have hsame : classless start = classless design ∧ Settled start := by
    rw [hstart]
    unfold ensureClassified
    split
    · exact ⟨rfl, h⟩
    · exact ⟨rfl, h⟩
  rw [hleft, DRCEngine.finished, hreplace]
  constructor
  · have hclassless : classless (replaceRefs start) = classless (replaceRefs design) :=
      congrArg (fun design : Design K => replaceRefs design) hsame.1
    rw [← hclassless]
    exact apply_settle rfl _
  · rw [replaceRefs_settle, replaceRefs_replaceRefs hsame.2]

theorem outcomeOf_drc (hdrc : registry check.type = some .drc) (design : Design K) :
    outcomeOf analyses check design = checkDrc analyses design check := by
  unfold outcomeOf
  rw [hdrc]
  rfl

theorem checkDrc_congr {design' : Design K} (h : analyses.engine.run design' = analyses.engine.run design)
    (check : CheckRequest K) : checkDrc analyses design' check = checkDrc analyses design check := by
  unfold checkDrc
  rw [h]

end Stages

/-! ## Lists of checks -/

section Order

variable {checks : List (CheckRequest K)} {design : Design K}

/-- The stages of a design: as it is, with its references replaced, and as the last check may leave it. -/
def stage (design last : Design K) : ℕ → Design K
  | 0 => design
  | 1 => replaceRefs design
  | _ + 2 => last

open Classical in
/-- The stage to which a check takes the design. -/
noncomputable def level (check : CheckRequest K) : ℕ :=
  if registry check.type = some .drc then 2 else if Replaces analyses check then 1 else 0

theorem runSingle_of_outcomeOf {check : CheckRequest K} {design' left : Design K}
    (h : outcomeOf analyses check design' = ((outcomeOf analyses check design).1, left)) :
    runSingle analyses check design' = ((runSingle analyses check design).1, left) := by
  unfold runSingle
  rw [h]

variable [IsStrictOrderedRing K]

theorem orderIndependent_of_not_replaces (h : ∀ check ∈ checks, ¬ Replaces analyses check) :
    OrderIndependent analyses checks design := by
  refine @Effects.orderIndependent_of_level _ _ _ ℕ (runSingle analyses) _ (fun _ => design) (fun _ => 0) checks design
    0 rfl ?_
  intro check hcheck _
  apply runSingle_of_outcomeOf
  exact Prod.ext rfl (outcomeOf_snd_of_not_replaces analyses (h check hcheck))

/-- **Where no check reads a reference that is replaced**, each takes the design to its own stage, if it is not
there yet. -/
theorem orderIndependent_of_unmixed (h : Unmixed checks design) : OrderIndependent analyses checks design := by
  classical
  obtain ⟨last, hlast⟩ : ∃ last, last = if ∃ check ∈ checks, registry check.type = some .drc
      then (analyses.engine.run design).2 else replaceRefs design := ⟨_, rfl⟩
  have hafterLast : After design last := by
    rw [hlast]
    split
    · exact after_run analyses h.settled
    · exact after_replaceRefs h.settled
  refine @Effects.orderIndependent_of_level _ _ _ ℕ (runSingle analyses) _ (stage design last) (level analyses) checks
    design 0 rfl ?_
  intro check hcheck j
  apply runSingle_of_outcomeOf
  by_cases hdrc : registry check.type = some .drc
  · -- the design rules are checked on any stage alike
    have hidentified := h.as_written ⟨check, hcheck, .inl hdrc⟩
    obtain ⟨hreplaced, hagain⟩ := run_eq_of_identified (enables_engine analyses "DRC-005") h.settled hidentified
    have hrun : analyses.engine.run (stage design last j) = analyses.engine.run design := by
      match j with
      | 0 => rfl
      | 1 => exact hreplaced
      | n + 2 =>
        show analyses.engine.run last = _
        rw [hlast, if_pos ⟨check, hcheck, hdrc⟩, hagain]
    have hlevel : j ⊔ level analyses check = (j - 2) + 2 := by
      unfold level
      rw [if_pos hdrc]
      show max j 2 = _
      omega
    rw [outcomeOf_drc analyses hdrc, outcomeOf_drc analyses hdrc, checkDrc_congr analyses hrun, hlevel]
    show _ = (_, last)
    rw [hlast, if_pos ⟨check, hcheck, hdrc⟩]
    rfl
  · have hlevel : level analyses check ≤ 1 := by
      unfold level
      rw [if_neg hdrc]
      split <;> omega
    have hlater : ∀ {after : Design K}, After design after →
        outcomeOf analyses check after = ((outcomeOf analyses check design).1, after) := fun hafter =>
      outcomeOf_after analyses h.settled hafter hdrc (h.clearance check hcheck)
        fun hsignal => h.as_written ⟨check, hcheck, .inr hsignal⟩
    match j with
    | 0 =>
      refine Prod.ext rfl ?_
      rw [Nat.zero_max]
      unfold level
      rw [if_neg hdrc]
      by_cases hreplaces : Replaces analyses check
      · rw [if_pos hreplaces]
        exact outcomeOf_snd_of_replaces analyses h.settled hdrc hreplaces
      · rw [if_neg hreplaces]
        exact outcomeOf_snd_of_not_replaces analyses hreplaces
    | 1 =>
      rw [Nat.max_eq_left hlevel]
      exact hlater (after_replaceRefs h.settled)
    | n + 2 =>
      rw [Nat.max_eq_left (hlevel.trans (by omega))]
      exact hlater hafterLast

theorem orderIndependent_of_undisturbed (h : Undisturbed analyses checks design) :
    OrderIndependent analyses checks design := by
  rcases h with hlength | hunmixed
  · exact Effects.orderIndependent_of_length_le hlength design
  · by_cases hreplaces : ∃ check ∈ checks, Replaces analyses check
    · exact orderIndependent_of_unmixed analyses (hunmixed hreplaces)
    · exact orderIndependent_of_not_replaces analyses fun check hcheck h => hreplaces ⟨check, hcheck, h⟩

/-- A clearance check that does not depend on the order sees no reference that another check replaces. -/
theorem untouched_of_orderIndependent (hsettled : Settled design) (h : OrderIndependent analyses checks design)
    {check other : CheckRequest K} (hcheck : check ∈ checks) (hother : other ∈ checks)
    (hclearance : registry check.type = some .clearance) (hreplaces : Replaces analyses other) :
    Untouched design check.minClearance := by
  have hne : other ≠ check := by
    rintro rfl
    unfold Replaces at hreplaces
    rw [hclearance] at hreplaces
    exact hreplaces
  have hafter : After design (runSingle analyses other design).2 := by
    by_cases hdrc : registry other.type = some .drc
    · show After design (outcomeOf analyses other design).2
      rw [outcomeOf_drc analyses hdrc]
      exact after_run analyses hsettled
    · show After design (outcomeOf analyses other design).2
      rw [outcomeOf_snd_of_replaces analyses hsettled hdrc hreplaces]
      exact after_replaceRefs hsettled
  have hreport := Effects.OrderIndependent.report_eq h hother hcheck hne
  have houtcome : ∀ design, (runSingle analyses check design).1.details =
      .clearance (checkClearance analyses.fmt design check.toCheckDefinition).details := by
    intro design
    show (outcomeOf analyses check design).1.details = _
    unfold outcomeOf
    rw [hclearance]
    rfl
  have hdetails := congrArg CheckResult.details hreport
  rw [houtcome, houtcome] at hdetails
  have hviolations : findClearanceViolations analyses.fmt (runSingle analyses other design).2 check.minClearance =
      findClearanceViolations analyses.fmt design check.minClearance :=
    congrArg ClearanceDetails.violations (Details.clearance.inj hdetails)
  apply (findClearanceViolations_replaceRefs_iff analyses.fmt hsettled _).mp
  rw [← hviolations]
  show (tracePairs (traceSegments (replaceRefs design))).filterMap _ =
    (tracePairs (traceSegments (runSingle analyses other design).2)).filterMap _
  rw [hafter.traces]

/-- **When the results of a list of checks do not depend on its order**: for every list of which no check reads a
reference that another one replaces, and for no other one, when the replaced references stay as they are and the list
has no design rule check and no analysis of signal integrity. -/
theorem orderIndependent_iff_undisturbed (checks : List (CheckRequest K)) (design : Design K) :
    (Undisturbed analyses checks design → OrderIndependent analyses checks design) ∧
      (Settled design → (∀ check ∈ checks, ¬ ReadsAsWritten check) → OrderIndependent analyses checks design →
        Undisturbed analyses checks design) := by
  constructor
  · exact orderIndependent_of_undisturbed analyses
  · intro hsettled hwritten h
    refine .inr ?_
    rintro ⟨other, hother, hreplaces⟩
    exact
      { settled := hsettled
        clearance := fun check hcheck hclearance =>
          untouched_of_orderIndependent analyses hsettled h hcheck hother hclearance hreplaces
        as_written := fun ⟨check, hcheck, hreads⟩ => absurd hreads (hwritten check hcheck) }

end Order

/-! ## A small board -/

/-- Analyses that find nothing, for where only the routing counts. -/
def plainAnalyses : Analyses ℚ Unit Unit where
  fmt := { round4 := id, shown := fun _ => "" }
  engine_fmt := plainEngine.fmt
  classifier := plainEngine.classifier
  knowledge_base := plainEngine.knowledge_base
  erc := fun _ => []
  footprint := fun _ => ""
  netlist_evidence := fun _ => ⟨0, 0, [], 1, 1⟩
  spice := fun _ => { status := .pass }
  signal_integrity := fun _ => { status := .pass }
  thermal := fun _ => { status := .pass }
  load_profile := fun _ => none
  dfm :=
    { freshness := fun _ => []
      board_dimensions := fun _ _ => []
      drill_holes := fun _ _ => []
      layer_count := fun _ _ => []
      silkscreen := fun _ _ => []
      assembly := fun _ _ => []
      special_features := fun _ _ => []
      trace_widths := fun _ _ => []
      clearances := fun _ _ => []
      vias := fun _ _ => []
      annular_ring := fun _ _ => []
      solder_mask := fun _ _ => []
      to_outcome := fun _ _ => { status := .pass } }
  oracle_available := false
  run_erc := fun _ => ⟨true, 0, 0, [], ""⟩
  run_drc := fun _ => ⟨true, 0, 0, [], ""⟩

def clearanceAndRouted : List (CheckRequest ℚ) :=
  [{ name := "clearance", type := "clearance" }, { name := "routed", type := "routed" }]

-- for `decide` below
attribute [local semireducible] Rat.add Rat.sub Rat.mul Rat.inv

/-- Two traces of one net side by side, one of them by the name of the net: the clearance check fails before the
references are replaced, and passes after. -/
theorem not_orderIndependent_aliasBoard :
    ¬ OrderIndependent plainAnalyses clearanceAndRouted (aliasBoard (81 / 8)) := by
  intro h
  have hreports := (h clearanceAndRouted.reverse (reverse_perm _)).1
  have hstatus := congrArg (map CheckResult.status) hreports
  have hrun : (runChecks plainAnalyses clearanceAndRouted.reverse (aliasBoard (81 / 8))).1.map CheckResult.status =
      [.pass, .pass] := by decide
  have halone : (clearanceAndRouted.reverse.map fun check =>
        (runSingle plainAnalyses check (aliasBoard (81 / 8))).1).map CheckResult.status = [.pass, .fail] := by
    decide
  rw [hrun, halone] at hstatus
  exact absurd hstatus (by decide)

/-- The two traces apart from each other. -/
theorem orderIndependent_aliasBoard : OrderIndependent plainAnalyses clearanceAndRouted (aliasBoard 15) := by
  refine (orderIndependent_iff_undisturbed plainAnalyses clearanceAndRouted (aliasBoard 15)).1 (.inr fun _ => ?_)
  have hsettled : Settled (aliasBoard 15) := by
    show (replaceRefs (replaceRefs (aliasBoard 15))).routing = (replaceRefs (aliasBoard 15)).routing
    decide
  have huntouched : Untouched (aliasBoard 15) (15 / 100) :=
    (findClearanceViolations_replaceRefs_iff plainAnalyses.fmt hsettled _).mp (by decide)
  refine ⟨hsettled, ?_, ?_⟩
  · intro check hcheck _
    rcases mem_pair.mp hcheck with rfl | rfl
    · exact huntouched
    · exact huntouched
  · rintro ⟨check, hcheck, hreads⟩
    rcases mem_pair.mp hcheck with rfl | rfl
    · exact absurd hreads (by rintro (h | h) <;> cases h)
    · exact absurd hreads (by rintro (h | h) <;> cases h)

end ZapTrace.Proof
