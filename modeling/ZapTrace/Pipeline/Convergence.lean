import ZapTrace.Pipeline.MultiDomainLoop

/-!
# Convergence of the synthesis loop

When the result of the synthesis loop agrees with its ledger. The loop notices failures of the synthesis,
of a repair that has changed the number of violations, of the placement and of the artifacts. Failures of
the routing, the design rules and the simulation are in the ledger only, and a repair that has changed
nothing counts as one without a reference. So a result is right when a failure of the first kind is there,
whatever else is, or when there is none of the second kind.

## Main results

* `drcIterate_iff`: the runs of the design rules end with violations when each of them finds some
* `runParts`: the parts of a run
* `honest_iff`: a result agrees with its ledger exactly when a failure is noticed or none is hidden
-/

namespace ZapTrace.Pipeline.MultiDomain

open List

variable {stages : Behaviour}

/-! ## The repair -/

/-- The repair starts with so many violations and leaves so many. -/
def Behaviour.ErcLeaves (stages : Behaviour) (max_iterations : ℤ) (before after : ℕ) : Prop :=
  before ≠ 0 ∧ stages.erc_run = .ok before ∧
    ∃ result, stages.repair_design max_iterations = .ok result ∧ result.remaining = after

/-- The repair leaves another number of violations. -/
def Behaviour.ErcBlocks (stages : Behaviour) (max_iterations : ℤ) : Prop :=
  ∃ before after, stages.ErcLeaves max_iterations before after ∧ after ≠ 0 ∧ before ≠ after

/-- The repair leaves as many violations as there were. -/
def Behaviour.ErcStuck (stages : Behaviour) (max_iterations : ℤ) : Prop :=
  ∃ before, stages.ErcLeaves max_iterations before before

theorem labelled_repairEntries (result : RepairResult) : Labelled ["erc_repair"] (repairEntries result) := by
  intro e he
  obtain ⟨⟨it, i⟩, -, rfl⟩ := mem_map.mp he
  exact mem_singleton_self _

theorem settled_repairEntries {result : RepairResult} (h : result.remaining = 0) :
    Settled (repairEntries result) := by
  obtain ⟨iterations, remaining⟩ := result
  obtain rfl : remaining = 0 := h
  cases iterations using reverseRecOn with
  | nil => exact settled_nil
  | append_singleton its it =>
    have hlabel := labelled_repairEntries ⟨its ++ [it], 0⟩
    unfold repairEntries at hlabel ⊢
    rw [zipIdx_append, map_append] at hlabel ⊢
    refine settled_concat_of_same (fun e he => hlabel e (mem_append_left _ he)) rfl ?_
    simp

/-- What the loop takes from the entries of the repair. -/
structure ErcFacts (stages : Behaviour) (max_iterations : ℤ) (entries : List LedgerEntry)
    (summary : Option LedgerEntry) : Prop where
  labelled : Labelled ["erc_repair", "erc_repair_summary"] entries
  blocks : stages.ErcBlocks max_iterations → ercBlockingStage summary = some "erc_repair" ∧ ¬ Settled entries
  not_blocks : ¬ stages.ErcBlocks max_iterations → ercBlockingStage summary = none
  remaining : (summary.bind LedgerEntry.after_count).getD 0 = 0 ↔
    ¬ stages.ErcBlocks max_iterations ∧ ¬ stages.ErcStuck max_iterations
  settled : ¬ stages.ErcBlocks max_iterations → ¬ stages.ErcStuck max_iterations → Settled entries
variable {max_iterations : ℤ} {entries : List LedgerEntry}

theorem runErcRepairLoop_eq_ok (h : runErcRepairLoop stages max_iterations = .ok entries) :
    (stages.erc_run = .ok 0 ∧ entries = [cleanEntry]) ∨
      ∃ before result, before ≠ 0 ∧ stages.erc_run = .ok before ∧
        stages.repair_design max_iterations = .ok result ∧
        entries = repairEntries result ++ [repairSummary before result] := by
  unfold runErcRepairLoop at h
  cases hrun : stages.erc_run with
  | error exc =>
    rw [hrun] at h
    cases h
  | ok before =>
    rw [hrun] at h
    by_cases hzero : before = 0
    · subst hzero
      exact .inl ⟨rfl, (Except.ok.inj h).symm⟩
    · simp only [bind, Except.bind, if_neg hzero] at h
      cases hrepair : stages.repair_design max_iterations with
      | error exc =>
        rw [hrepair] at h
        cases h
      | ok result =>
        rw [hrepair] at h
        exact .inr ⟨before, result, hzero, rfl, rfl, (Except.ok.inj h).symm⟩

theorem ercFacts_of_clean (h : stages.erc_run = .ok 0) : ErcFacts stages max_iterations [cleanEntry] none := by
  have hleaves : ∀ before after, ¬ stages.ErcLeaves max_iterations before after := by
    rintro before after ⟨hne, hrun, -⟩
    exact hne (Except.ok.inj (hrun.symm.trans h))
  have hblocks : ¬ stages.ErcBlocks max_iterations := fun ⟨_, _, hb, _⟩ => hleaves _ _ hb
  have hstuck : ¬ stages.ErcStuck max_iterations := fun ⟨_, hb⟩ => hleaves _ _ hb
  exact {
    labelled := fun e he => by simp [mem_singleton.mp he, cleanEntry]
    blocks := fun h => absurd h hblocks
    not_blocks := fun _ => rfl
    remaining := by simp [hblocks, hstuck]
    settled := fun _ _ => settled_singleton.mpr (by simp [cleanEntry]) }

theorem ercFacts_of_repair {before : ℕ} {result : RepairResult} (hne : before ≠ 0) (hrun : stages.erc_run = .ok before)
    (hrepair : stages.repair_design max_iterations = .ok result) :
    ErcFacts stages max_iterations (repairEntries result ++ [repairSummary before result])
      (some (repairSummary before result)) := by
  have hleaves : ∀ n m, stages.ErcLeaves max_iterations n m ↔ n = before ∧ m = result.remaining := by
    intro n m
    constructor
    · rintro ⟨-, hn, result', hresult', rfl⟩
      obtain rfl := Except.ok.inj (hresult'.symm.trans hrepair)
      exact ⟨Except.ok.inj (hn.symm.trans hrun), rfl⟩
    · rintro ⟨rfl, rfl⟩
      exact ⟨hne, hrun, result, hrepair, rfl⟩
  have hblocks : stages.ErcBlocks max_iterations ↔ result.remaining ≠ 0 ∧ before ≠ result.remaining := by
    simp [Behaviour.ErcBlocks, hleaves]
  have hstuck : stages.ErcStuck max_iterations ↔ before = result.remaining := by
    simp [Behaviour.ErcStuck, hleaves]
  have hsummary : Labelled ["erc_repair_summary"] [repairSummary before result] := fun e he => by
    simp [mem_singleton.mp he, repairSummary]
  have hsplit := settled_append (labelled_repairEntries result) hsummary (by decide)
  refine ⟨?_, fun h => ?_, fun h => ?_, ?_, fun h h' => ?_⟩
  · exact (labelled_repairEntries result).append hsummary
  · obtain ⟨hleft, hother⟩ := hblocks.mp h
    have hstatus : (repairSummary before result).status = .fail := by
      simp [repairSummary, hleft, hother]
    exact ⟨by simp [ercBlockingStage, hstatus], fun hsettled =>
      settled_singleton.mp (hsplit.mp hsettled).2 hstatus⟩
  · have hstatus : (repairSummary before result).status ≠ .fail := by
      rw [hblocks] at h
      simp only [repairSummary]
      split_ifs with hleft hsame
      · simp
      · simp
      · exact absurd ⟨hleft, hsame⟩ h
    simp [ercBlockingStage, hstatus]
  · rw [hblocks, hstuck]
    show result.remaining = 0 ↔ _
    constructor
    · intro hzero
      exact ⟨fun h => h.1 hzero, fun h => hne (h.trans hzero)⟩
    · rintro ⟨hnot, hsame⟩
      by_contra hleft
      exact hnot ⟨hleft, hsame⟩
  · rw [hblocks] at h
    rw [hstuck] at h'
    have hzero : result.remaining = 0 := by
      by_contra hleft
      exact h ⟨hleft, h'⟩
    exact hsplit.mpr ⟨settled_repairEntries hzero, settled_singleton.mpr (by simp [repairSummary, hzero])⟩

theorem ercFacts {first : LedgerEntry} (hfirst : first.stage = "synthesis")
    (h : runErcRepairLoop stages max_iterations = .ok entries) :
    ErcFacts stages max_iterations entries
      (([first] ++ entries).reverse.find? fun e => e.stage = "erc_repair_summary") := by
  rcases runErcRepairLoop_eq_ok h with ⟨hrun, rfl⟩ | ⟨before, result, hne, hrun, hrepair, rfl⟩
  · have hnone : (([first] ++ [cleanEntry]).reverse.find? fun e => e.stage = "erc_repair_summary") = none := by
      simp [hfirst, cleanEntry]
    rw [hnone]
    exact ercFacts_of_clean hrun
  · have hsome : (([first] ++ (repairEntries result ++ [repairSummary before result])).reverse.find?
        fun e => e.stage = "erc_repair_summary") = some (repairSummary before result) := by
      simp [repairSummary]
    rw [hsome]
    exact ercFacts_of_repair hne hrun hrepair

/-! ## The other stages -/

/-- Neither router gives an answer. -/
def Behaviour.RoutingRaises (stages : Behaviour) : Prop :=
  (∃ exc, stages.grid_route = .error exc) ∨
    ∃ total exc, stages.grid_route = .ok (0, total) ∧ stages.route_design_smart = .error exc

/-- The runner of the design rules finds violations to the end. -/
def Behaviour.DrcFails (stages : Behaviour) (max_iterations : ℤ) : Prop :=
  stages.drc_runner = .ok () ∧
    (∃ n, stages.drc_run 0 = .ok n ∧ (max_iterations.toNat = 0 → n ≠ 0)) ∧
    ∀ i < max_iterations.toNat, ∃ n, stages.drc_run (i + 1) = .ok n ∧ n ≠ 0

def Behaviour.SimulationFails (stages : Behaviour) : Prop :=
  ∃ reason, stages.run_simulation_gate = .ok ("fail", reason)

/-- Some artifact is missing. -/
def Behaviour.PackFails (stages : Behaviour) : Prop :=
  ∃ generator ∈ generators stages, generator.2.toOption = none

theorem runPlacement_spec (stages : Behaviour) :
    ∃ entry, (runPlacement stages).2 = [entry] ∧ entry.stage = "placement" ∧
      (entry.status = .fail ↔ (runPlacement stages).1 = none) := by
  unfold runPlacement
  cases stages.place_components with
  | ok n => exact ⟨_, rfl, rfl, by simp⟩
  | error exc => exact ⟨_, rfl, rfl, by simp⟩

theorem runPlacement_eq_none_iff (stages : Behaviour) :
    (runPlacement stages).1 = none ↔ ∃ exc, stages.place_components = .error exc := by
  unfold runPlacement
  cases stages.place_components <;> simp

theorem runRouting_spec (stages : Behaviour) :
    ∃ entry, runRouting stages = [entry] ∧ entry.stage = "routing" ∧
      (entry.status = .fail ↔ stages.RoutingRaises) := by
  unfold runRouting routedNets Behaviour.RoutingRaises
  cases stages.grid_route with
  | error exc => exact ⟨_, rfl, rfl, by simp⟩
  | ok nets =>
    obtain ⟨routed, total⟩ := nets
    rcases Nat.eq_zero_or_pos routed with rfl | hrouted
    · cases stages.route_design_smart with
      | error exc => exact ⟨_, rfl, rfl, by simp⟩
      | ok routed =>
        refine ⟨_, rfl, rfl, ?_⟩
        rcases Nat.eq_zero_or_pos routed with rfl | hrouted
        · simp
        · simp [hrouted]
    · simp only [bind, Except.bind, gt_iff_lt, hrouted, if_true, pure, Except.pure]
      refine ⟨_, rfl, rfl, ?_⟩
      have hne : routed ≠ 0 := Nat.pos_iff_ne_zero.mp hrouted
      simp [hne]

theorem runSimulationGate_spec (stages : Behaviour) :
    ∃ entry, runSimulationGate stages = [entry] ∧ entry.stage = "simulation_gate" ∧
      (entry.status = .fail ↔ stages.SimulationFails) := by
  unfold runSimulationGate Behaviour.SimulationFails
  cases stages.run_simulation_gate with
  | error exc => exact ⟨_, rfl, rfl, by simp⟩
  | ok answer =>
    obtain ⟨value, reason⟩ := answer
    have hfail : StageStatus.ofValue value = some .fail ↔ value = "fail" := by
      unfold StageStatus.ofValue
      split <;> simp_all
    dsimp only
    cases hvalue : StageStatus.ofValue value with
    | none =>
      refine ⟨_, rfl, rfl, ?_⟩
      have hne : value ≠ "fail" := fun h => by simp [hfail.mpr h] at hvalue
      simp [hne]
    | some status =>
      refine ⟨_, rfl, rfl, ?_⟩
      rw [hvalue, Option.some.injEq] at hfail
      simp [hfail]

theorem buildProofPack_spec (stages : Behaviour) (design_name : String) :
    ∃ entry, (buildProofPack stages design_name).2 = [entry] ∧ entry.stage = "proof_pack" ∧
      (entry.status = .fail ↔ stages.PackFails) := by
  refine ⟨_, rfl, rfl, ?_⟩
  have herrors : ((generators stages).filter fun g => g.2.toOption.isNone) = [] ↔ ¬ stages.PackFails := by
    simp [Behaviour.PackFails, filter_eq_nil_iff, Option.isNone_iff_eq_none]
  have hartifacts : ¬ stages.PackFails → ((generators stages).filterMap fun g =>
      g.2.toOption.map fun content => (g.1, content)) ≠ [] := by
    intro hall hnil
    have hmem : ("bom_csv", stages.bom_csv) ∈ generators stages := mem_cons_self
    have hnone := filterMap_eq_nil_iff.mp hnil _ hmem
    exact hall ⟨_, hmem, by simpa using hnone⟩
  by_cases hfails : stages.PackFails
  · simp [hfails, herrors]
  · simp [hfails, herrors, hartifacts hfails]

/-- The loop of the design rules ends with violations exactly when each of its runs finds some. -/
theorem drcIterate_iff (stages : Behaviour) (remaining iteration_idx count iterations_done : ℕ) :
    (∃ c d, drcIterate stages remaining iteration_idx count iterations_done = .ok (c, d) ∧ c ≠ 0) ↔
      (remaining = 0 → count ≠ 0) ∧
        ∀ i < remaining, ∃ n, stages.drc_run (iteration_idx + i + 1) = .ok n ∧ n ≠ 0 := by
  induction remaining generalizing iteration_idx count iterations_done with
  | zero => simp [drcIterate, pure, Except.pure]
  | succ remaining ih =>
    unfold drcIterate
    cases hrun : stages.drc_run (iteration_idx + 1) with
    | error exc =>
      refine iff_of_false (by rintro ⟨c, d, h, -⟩; cases h) fun h => ?_
      obtain ⟨n, hn, -⟩ := h.2 0 (Nat.succ_pos _)
      rw [Nat.add_zero, hrun] at hn
      cases hn
    | ok n =>
      by_cases hzero : n = 0
      · subst hzero
        refine iff_of_false (by rintro ⟨c, d, h, hc⟩; cases h; exact hc rfl) fun h => ?_
        obtain ⟨n, hn, hne⟩ := h.2 0 (Nat.succ_pos _)
        rw [Nat.add_zero, hrun] at hn
        exact hne (Except.ok.inj hn).symm
      · simp only [bind, Except.bind, if_neg hzero]
        rw [ih]
        constructor
        · rintro ⟨-, hrest⟩
          refine ⟨fun h => absurd h (Nat.succ_ne_zero _), fun i hi => ?_⟩
          cases i with
          | zero => exact ⟨n, hrun, hzero⟩
          | succ i =>
            obtain ⟨m, hm, hne⟩ := hrest i (Nat.lt_of_succ_lt_succ hi)
            exact ⟨m, by rw [← hm]; congr 1; omega, hne⟩
        · rintro ⟨-, hall⟩
          refine ⟨fun _ => hzero, fun i hi => ?_⟩
          obtain ⟨m, hm, hne⟩ := hall (i + 1) (Nat.succ_lt_succ hi)
          exact ⟨m, by rw [← hm]; congr 1; omega, hne⟩

theorem drcFails_iff (stages : Behaviour) (max_iterations : ℤ) :
    stages.DrcFails max_iterations ↔
      ∃ before count done, drcCounts stages max_iterations = .ok (before, count, done) ∧ count ≠ 0 := by
  unfold Behaviour.DrcFails drcCounts
  cases stages.drc_runner with
  | error exc => exact iff_of_false (by rintro ⟨h, -⟩; cases h) (by rintro ⟨_, _, _, h, -⟩; cases h)
  | ok _ =>
    cases stages.drc_run 0 with
    | error exc =>
      exact iff_of_false (by rintro ⟨-, ⟨n, h, -⟩, -⟩; cases h) (by rintro ⟨_, _, _, h, -⟩; cases h)
    | ok before =>
      have hloop := drcIterate_iff stages max_iterations.toNat 0 before 0
      simp only [Nat.zero_add] at hloop
      simp only [bind, Except.bind]
      constructor
      · rintro ⟨-, ⟨n, hn, hbefore⟩, hall⟩
        obtain rfl := Except.ok.inj hn
        obtain ⟨c, d, hiterate, hc⟩ := hloop.mpr ⟨hbefore, hall⟩
        exact ⟨before, c, d, by rw [hiterate]; rfl, hc⟩
      · rintro ⟨before', c, d, h, hc⟩
        cases hiterate : drcIterate stages max_iterations.toNat 0 before 0 with
        | error exc =>
          rw [hiterate] at h
          cases h
        | ok counts =>
          obtain ⟨count, done⟩ := counts
          rw [hiterate] at h
          obtain ⟨-, rfl, -⟩ : before = before' ∧ count = c ∧ done = d := by
            simpa [pure, Except.pure] using h
          obtain ⟨hbefore, hall⟩ := hloop.mp ⟨count, done, hiterate, hc⟩
          exact ⟨trivial, ⟨before, rfl, hbefore⟩, hall⟩

theorem runDrcRepairLoop_spec (h : runDrcRepairLoop stages max_iterations = .ok entries) :
    ∃ entry, entries = [entry] ∧ entry.stage = "drc_repair" ∧
      (entry.status = .fail ↔ stages.DrcFails max_iterations) := by
  rw [drcFails_iff]
  unfold runDrcRepairLoop at h
  rcases hcounts : drcCounts stages max_iterations with ((_ | text) | ⟨before, count, done⟩) <;>
    rw [hcounts] at h <;> cases h
  · exact ⟨_, rfl, rfl, by simp⟩
  · exact ⟨_, rfl, rfl, by simp⟩

/-! ## Results and ledgers -/

/-- The result agrees with the ledger: it is converged exactly when the latest status of every stage is no
failure, and a converged result without a blocking stage hides no failure and no violation. -/
structure Honest (r : LoopResult) : Prop where
  converged_iff : r.converged = true ↔ Settled r.ledger
  nothing_failed : r.converged = true → r.blocking_stage = none →
    ∀ e ∈ r.ledger, e.stage ∈ ["routing", "drc_repair", "simulation_gate"] → e.status ≠ .fail
  nothing_remains : r.converged = true → r.blocking_stage = none → r.erc_violations_remaining = 0

/-- A failure that the loop notices: of the synthesis, of the repair when it has changed the number of
violations, of the placement, or of the artifacts. -/
def Behaviour.Blocks (stages : Behaviour) (intent : String) (max_erc_iterations : ℤ) : Prop :=
  (∃ exc, stages.synthesize intent = .error exc) ∨ stages.ErcBlocks max_erc_iterations ∨
    (∃ exc, stages.place_components = .error exc) ∨ stages.PackFails

/-- A failure that the loop does not notice. -/
def Behaviour.Hides (stages : Behaviour) (max_erc_iterations max_drc_iterations : ℤ) : Prop :=
  stages.RoutingRaises ∨ stages.DrcFails max_drc_iterations ∨ stages.SimulationFails ∨
    stages.ErcStuck max_erc_iterations

structure RunParts (stages : Behaviour) (max_erc_iterations max_drc_iterations : ℤ) (r : LoopResult)
    (first place drc sim pack : LedgerEntry) (ercs routes : List LedgerEntry)
    (summary : Option LedgerEntry) : Prop where
  first_spec : first.stage = "synthesis" ∧ first.status = .pass
  erc_spec : ErcFacts stages max_erc_iterations ercs summary
  place_spec : place.stage = "placement" ∧
    (place.status = .fail ↔ ∃ exc, stages.place_components = .error exc)
  routing_of_placed : (¬ ∃ exc, stages.place_components = .error exc) →
    ∃ route, routes = [route] ∧ route.stage = "routing" ∧ (route.status = .fail ↔ stages.RoutingRaises)
  routing_spec : Labelled ["routing"] routes
  drc_spec : drc.stage = "drc_repair" ∧ (drc.status = .fail ↔ stages.DrcFails max_drc_iterations)
  sim_spec : sim.stage = "simulation_gate" ∧ (sim.status = .fail ↔ stages.SimulationFails)
  pack_spec : pack.stage = "proof_pack" ∧ (pack.status = .fail ↔ stages.PackFails)
  ledger : r.ledger = [first] ++ ercs ++ [place] ++ routes ++ [drc] ++ [sim] ++ [pack]
  blocking_stage : r.blocking_stage = none ↔
    ercBlockingStage summary = none ∧ place.status ≠ .fail ∧ pack.status ≠ .fail
  converged : r.converged = r.blocking_stage.isNone
  remaining : r.erc_violations_remaining = (summary.bind LedgerEntry.after_count).getD 0

theorem packBlockingStage_eq_none_iff {ledger : List LedgerEntry} {pack : LedgerEntry}
    {blocking_stage : Option String} (hpack : pack.stage = "proof_pack") :
    packBlockingStage (ledger ++ [pack]) blocking_stage = none ↔
      blocking_stage = none ∧ pack.status ≠ .fail := by
  unfold packBlockingStage
  rw [getLast?_concat]
  dsimp only
  split_ifs with h
  · exact iff_of_false (by simp) fun hnone => hnone.2 h.2.1
  · refine ⟨fun hnone => ⟨hnone, fun hfail => h ⟨hpack, hfail, hnone⟩⟩, fun hnone => hnone.1⟩
variable {max_erc_iterations max_drc_iterations : ℤ} {r : LoopResult}

theorem runParts {intent design_name : String} (hname : stages.synthesize intent = .ok design_name)
    (h : runMultiDomainLoop stages intent max_erc_iterations max_drc_iterations = .ok r) :
    ∃ first place drc sim pack ercs routes summary,
      RunParts stages max_erc_iterations max_drc_iterations r first place drc sim pack ercs routes
        summary := by
  unfold runMultiDomainLoop runSynthesis at h
  rw [hname] at h
  dsimp only at h
  cases herc : runErcRepairLoop stages max_erc_iterations with
  | error exc =>
    rw [herc] at h
    cases h
  | ok erc =>
    rw [herc] at h
    cases hdrc : runDrcRepairLoop stages max_drc_iterations with
    | error exc =>
      rw [hdrc] at h
      cases h
    | ok drc_entries =>
      rw [hdrc] at h
      obtain ⟨place, hplace, hplaceStage, hplaceFail⟩ := runPlacement_spec stages
      obtain ⟨drc, rfl, hdrcStage, hdrcFail⟩ := runDrcRepairLoop_spec hdrc
      obtain ⟨sim, hsim, hsimStage, hsimFail⟩ := runSimulationGate_spec stages
      obtain ⟨pack, hpack, hpackStage, hpackFail⟩ := buildProofPack_spec stages design_name
      obtain ⟨route, hroute, hrouteStage, hrouteFail⟩ := runRouting_spec stages
      have hplaced := runPlacement_eq_none_iff stages
      have hlabelled : Labelled ["routing"] [route] := fun e he => by
        simp [mem_singleton.mp he, hrouteStage]
      obtain rfl := Except.ok.inj h
      set first : LedgerEntry :=
        { stage := "synthesis", status := .pass, detail := s!"synthesised design '{design_name}'" }
      refine ⟨first, place, drc, sim, pack, erc, if (runPlacement stages).1 ≠ none then [route] else [], _,
        ⟨rfl, rfl⟩, ercFacts rfl herc, ⟨hplaceStage, hplaceFail.trans hplaced⟩, ?_, ?_,
        ⟨hdrcStage, hdrcFail⟩, ⟨hsimStage, hsimFail⟩, ⟨hpackStage, hpackFail⟩, ?_, ?_, rfl, rfl⟩
      · intro hok
        exact ⟨route, if_pos (mt hplaced.mp hok), hrouteStage, hrouteFail⟩
      · split_ifs
        · exact hlabelled
        · exact fun e he => absurd he not_mem_nil
      · simp only [hplace, hsim, hpack, hroute]
        split_ifs <;> simp
      · simp only [hpack, packBlockingStage_eq_none_iff hpackStage]
        rw [ne_eq place.status, hplaceFail, ← and_assoc, and_congr_left_iff]
        intro _
        split_ifs with hnone
        · exact iff_of_false (by simp) fun h => h.2 hnone.1
        · refine ⟨fun hblock => ⟨hblock, fun hfail => hnone ⟨hfail, hblock⟩⟩, fun h => h.1⟩

variable {first place drc sim pack : LedgerEntry} {ercs routes : List LedgerEntry} {summary : Option LedgerEntry}

theorem RunParts.settled_iff
    (h : RunParts stages max_erc_iterations max_drc_iterations r first place drc sim pack ercs routes summary) :
    Settled r.ledger ↔ Settled ercs ∧ place.status ≠ .fail ∧ Settled routes ∧ drc.status ≠ .fail ∧
      sim.status ≠ .fail ∧ pack.status ≠ .fail := by
  have hfirst : Labelled ["synthesis"] [first] := fun e he => by
    simp [mem_singleton.mp he, h.first_spec.1]
  have herc := hfirst.append h.erc_spec.labelled
  have hplace := herc.concat h.place_spec.1
  have hroutes := hplace.append h.routing_spec
  have hdrc := hroutes.concat h.drc_spec.1
  have hsim := hdrc.concat h.sim_spec.1
  rw [h.ledger, settled_concat hsim (by rw [h.pack_spec.1]; decide),
    settled_concat hdrc (by rw [h.sim_spec.1]; decide),
    settled_concat hroutes (by rw [h.drc_spec.1]; decide),
    settled_append hplace h.routing_spec (by decide),
    settled_concat herc (by rw [h.place_spec.1]; decide),
    settled_append hfirst h.erc_spec.labelled (by decide), settled_singleton, h.first_spec.2]
  simp only [ne_eq, reduceCtorEq, not_false_eq_true, true_and, and_assoc]

theorem RunParts.honest_of_blocks
    (h : RunParts stages max_erc_iterations max_drc_iterations r first place drc sim pack ercs routes summary)
    (hblocks : stages.ErcBlocks max_erc_iterations ∨ (∃ exc, stages.place_components = .error exc) ∨ stages.PackFails) :
    Honest r := by
  have hconverged : r.converged = false := by
    rw [h.converged, Option.isNone_eq_false_iff, Option.isSome_iff_ne_none, ne_eq, h.blocking_stage]
    rintro ⟨herc, hplace, hpack⟩
    rcases hblocks with hblocks | hblocks | hblocks
    · rw [(h.erc_spec.blocks hblocks).1] at herc
      cases herc
    · exact hplace (h.place_spec.2.mpr hblocks)
    · exact hpack (h.pack_spec.2.mpr hblocks)
  have hsettled : ¬ Settled r.ledger := by
    rw [h.settled_iff]
    rintro ⟨herc, hplace, -, -, -, hpack⟩
    rcases hblocks with hblocks | hblocks | hblocks
    · exact (h.erc_spec.blocks hblocks).2 herc
    · exact hplace (h.place_spec.2.mpr hblocks)
    · exact hpack (h.pack_spec.2.mpr hblocks)
  exact ⟨by simp [hconverged, hsettled], by simp [hconverged], by simp [hconverged]⟩

/-- A result without a failure that is noticed agrees with its ledger when none is hidden. -/
theorem RunParts.honest_iff_of_not_blocks
    (h : RunParts stages max_erc_iterations max_drc_iterations r first place drc sim pack ercs routes summary)
    (herc : ¬ stages.ErcBlocks max_erc_iterations) (hplace : ¬ ∃ exc, stages.place_components = .error exc)
    (hpack : ¬ stages.PackFails) : Honest r ↔ ¬ stages.Hides max_erc_iterations max_drc_iterations := by
  have hblocking : r.blocking_stage = none :=
    h.blocking_stage.mpr ⟨h.erc_spec.not_blocks herc, mt h.place_spec.2.mp hplace,
      mt h.pack_spec.2.mp hpack⟩
  have hconverged : r.converged = true := by rw [h.converged, hblocking]; rfl
  obtain ⟨route, rfl, hroute, hrouteFail⟩ := h.routing_of_placed hplace
  have hremaining : r.erc_violations_remaining = 0 ↔ ¬ stages.ErcStuck max_erc_iterations := by
    rw [h.remaining, h.erc_spec.remaining, and_iff_right herc]
  constructor
  · intro hhonest
    have hfailed := hhonest.nothing_failed hconverged hblocking
    have hstuck := hremaining.mp (hhonest.nothing_remains hconverged hblocking)
    rintro (hhides | hhides | hhides | hhides)
    · exact hfailed route (by simp [h.ledger]) (by simp [hroute]) (hrouteFail.mpr hhides)
    · exact hfailed drc (by simp [h.ledger]) (by simp [h.drc_spec.1]) (h.drc_spec.2.mpr hhides)
    · exact hfailed sim (by simp [h.ledger]) (by simp [h.sim_spec.1]) (h.sim_spec.2.mpr hhides)
    · exact hstuck hhides
  · intro hnone
    simp only [Behaviour.Hides, not_or] at hnone
    obtain ⟨hroutes, hdrc, hsim, hstuck⟩ := hnone
    have hsettled : Settled r.ledger := h.settled_iff.mpr
      ⟨h.erc_spec.settled herc hstuck, mt h.place_spec.2.mp hplace,
        settled_singleton.mpr (mt hrouteFail.mp hroutes), mt h.drc_spec.2.mp hdrc,
        mt h.sim_spec.2.mp hsim, mt h.pack_spec.2.mp hpack⟩
    refine ⟨by simp [hconverged, hsettled], fun _ _ e he hstage => ?_, fun _ _ => hremaining.mpr hstuck⟩
    -- of the parts of the ledger only three have one of these stages
    have hercs : ∀ e ∈ ercs, e.stage ∉ ["routing", "drc_repair", "simulation_gate"] := fun e he hin => by
      have hlabel := h.erc_spec.labelled e he
      simp only [mem_cons, not_mem_nil, or_false] at hlabel hin
      rcases hlabel with hlabel | hlabel <;> rw [hlabel] at hin <;> simp at hin
    rw [h.ledger] at he
    simp only [mem_append, mem_singleton] at he
    rcases he with (((((rfl | he) | rfl) | rfl) | rfl) | rfl) | rfl
    · rw [h.first_spec.1] at hstage
      simp at hstage
    · exact absurd hstage (hercs e he)
    · rw [h.place_spec.1] at hstage
      simp at hstage
    · exact mt hrouteFail.mp hroutes
    · exact mt h.drc_spec.2.mp hdrc
    · exact mt h.sim_spec.2.mp hsim
    · rw [h.pack_spec.1] at hstage
      simp at hstage

/-- **A result agrees with its ledger** exactly when a failure is noticed, or none is hidden. -/
theorem honest_iff {stages : Behaviour} {intent : String} {max_erc_iterations max_drc_iterations : ℤ}
    {r : LoopResult}
    (h : runMultiDomainLoop stages intent max_erc_iterations max_drc_iterations = .ok r) :
    Honest r ↔ stages.Blocks intent max_erc_iterations ∨
      ¬ stages.Hides max_erc_iterations max_drc_iterations := by
  cases hname : stages.synthesize intent with
  | error exc =>
    have hblocks : stages.Blocks intent max_erc_iterations := .inl ⟨exc, hname⟩
    refine iff_of_true ?_ (.inl hblocks)
    unfold runMultiDomainLoop runSynthesis at h
    rw [hname] at h
    obtain rfl := Except.ok.inj h
    refine ⟨?_, by simp, by simp⟩
    show false = true ↔ Settled [_]
    rw [settled_singleton]
    simp
  | ok design_name =>
    obtain ⟨first, place, drc, sim, pack, ercs, routes, summary, hparts⟩ := runParts hname h
    have hsynthesized : ¬ ∃ exc, stages.synthesize intent = .error exc := by simp [hname]
    unfold Behaviour.Blocks
    rw [or_iff_right hsynthesized]
    by_cases hblocks : stages.ErcBlocks max_erc_iterations ∨
        (∃ exc, stages.place_components = .error exc) ∨ stages.PackFails
    · exact iff_of_true (hparts.honest_of_blocks hblocks) (.inl hblocks)
    · rw [or_iff_right hblocks]
      simp only [not_or] at hblocks
      exact hparts.honest_iff_of_not_blocks hblocks.1 hblocks.2.1 hblocks.2.2

/-! ## A run with a failed simulation -/

def failedSimulation : Behaviour where
  synthesize _ := .ok "board"
  erc_run := .ok 0
  repair_design _ := .ok ⟨[], 0⟩
  place_components := .ok 4
  grid_route := .ok (3, 3)
  route_design_smart := .ok 0
  drc_runner := .error .unavailable
  drc_run _ := .error .unavailable
  run_simulation_gate := .ok ("fail", "rail out of tolerance")
  bom_csv := .ok "bom"
  bom_json := .ok "bom"
  report := .ok "report"
  svg := .ok "svg"

theorem honest_iff_failedSimulation :
    ∃ r, runMultiDomainLoop failedSimulation "USB-C powered board" 5 3 = .ok r ∧
      (Honest r ↔ failedSimulation.Blocks "USB-C powered board" 5 ∨ ¬ failedSimulation.Hides 5 3) :=
  ⟨_, rfl, @honest_iff failedSimulation "USB-C powered board" 5 3 _ rfl⟩

theorem not_honest_failedSimulation :
    ∃ r, runMultiDomainLoop failedSimulation "USB-C powered board" 5 3 = .ok r ∧ r.converged = true ∧
      r.blocking_stage = none ∧ ¬ Honest r := by
  refine ⟨_, rfl, rfl, rfl, fun h => ?_⟩
  exact h.nothing_failed rfl rfl
    { stage := "simulation_gate", status := .fail, detail := "rail out of tolerance" }
    (by simp [failedSimulation, runSimulationGate, StageStatus.ofValue]) (by simp) rfl

end ZapTrace.Pipeline.MultiDomain
