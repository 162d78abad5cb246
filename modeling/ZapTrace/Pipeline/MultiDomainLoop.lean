import Mathlib.Data.Int.Notation
import Mathlib.Data.Nat.Notation
import ZapTrace.Library.Dict

/-!
# The synthesis loop over several domains

A run goes from an intent to a design and on through electrical repair, placement, routing, design rules,
simulation and the bundle of artifacts. Each stage appends its verdict to a ledger. Whether the run has
converged is not read off the ledger: it is kept in a variable for the stage that blocks, which the stages
of routing, design rules and simulation never set, and which the electrical repair does not set when it
has repaired nothing at all.

What the implementations of the stages do is arbitrary: an answer or an exception for each call.

## Main results

* `settled_append`, `settled_concat`: the latest statuses of two parts of a ledger
* `settled_concat_of_same`: of entries of one stage the last one counts
-/

namespace ZapTrace.Pipeline.MultiDomain

open List

inductive StageStatus
  | pass | fail | skipped | noReference
  deriving DecidableEq

/-- `StageStatus(value)` -/
def StageStatus.ofValue : String → Option StageStatus
  | "pass" => some .pass
  | "fail" => some .fail
  | "skipped" => some .skipped
  | "no_reference" => some .noReference
  | _ => none

/-- The record of a stage, less its time and its structured evidence. -/
structure LedgerEntry where
  stage : String
  status : StageStatus
  iteration : ℕ := 0
  before_count : Option ℕ := none
  after_count : Option ℕ := none
  detail : String := ""
  deriving DecidableEq

/-- One round of repairs: how many violations there are before and after it, and how many patches. -/
structure RepairIteration where
  violations_before : ℕ
  violations_after : ℕ
  patches : ℕ

/-- What `repair_design` returns: its rounds, and how many violations remain. -/
structure RepairResult where
  iterations : List RepairIteration
  remaining : ℕ

/-- An exception of the design rule runner: an `ImportError` or `AttributeError`, or another one. -/
inductive DrcException
  | unavailable
  | other (text : String)

/-- What the implementations of the stages answer in a run. An error is the text of an exception. -/
structure Behaviour where
  /-- The name of the design. -/
  synthesize : String → Except String String
  /-- The number of violations. -/
  erc_run : Except String ℕ
  repair_design : ℤ → Except String RepairResult
  /-- The number of components that are placed. -/
  place_components : Except String ℕ
  /-- The nets that are routed, and all nets. -/
  grid_route : Except String (ℕ × ℕ)
  route_design_smart : Except String ℕ
  drc_runner : Except DrcException Unit
  /-- The number of violations that each run of the runner finds, and zero for a result without any. -/
  drc_run : ℕ → Except DrcException ℕ
  /-- The value of the status, and the reason. -/
  run_simulation_gate : Except String (String × String)
  bom_csv : Except String String
  bom_json : Except String String
  report : Except String String
  svg : Except String String

structure ProofPack where
  design_name : String
  artifacts : List (String × String)

structure LoopResult where
  design_name : String
  intent : String
  converged : Bool
  blocking_stage : Option String
  ledger : List LedgerEntry := []
  proof_pack : Option ProofPack := none
  erc_violations_remaining : ℕ := 0

/-- The latest status of each stage. -/
def stageStatuses (ledger : List LedgerEntry) : Dict String StageStatus :=
  ledger.foldl (fun result entry => result.set entry.stage entry.status) Dict.empty

/-! ## Stages

Each stage is given by the entries that it appends to the ledger. -/

variable (stages : Behaviour)

def runSynthesis (intent : String) : Option String × List LedgerEntry :=
  match stages.synthesize intent with
  | .ok name =>
    (some name, [{ stage := "synthesis", status := .pass, detail := s!"synthesised design '{name}'" }])
  | .error exc => (none, [{ stage := "synthesis", status := .fail, detail := s!"synthesis error: {exc}" }])

/-- The entries of the rounds of repair: only the last one passes, when nothing remains. -/
def repairEntries (result : RepairResult) : List LedgerEntry :=
  result.iterations.zipIdx.map fun (it, i) =>
    { stage := "erc_repair"
      iteration := i
      status := if i + 1 = result.iterations.length ∧ result.remaining = 0 then .pass else .fail
      before_count := some it.violations_before
      after_count := some it.violations_after
      detail := s!"applied {it.patches} patch(es)" }

/-- The entry that sums up the repair. -/
def repairSummary (before_count : ℕ) (result : RepairResult) : LedgerEntry where
  stage := "erc_repair_summary"
  status :=
    if result.remaining = 0 then .pass
    else if before_count = result.remaining then .noReference
    else .fail
  before_count := some before_count
  after_count := some result.remaining
  detail :=
    if result.remaining = 0 then "ERC fully repaired"
    else s!"{result.remaining} violation(s) remain after {result.iterations.length} iteration(s)"

/-- The entry of a design without violations. -/
def cleanEntry : LedgerEntry where
  stage := "erc_repair"
  status := .pass
  before_count := some 0
  after_count := some 0
  detail := "no ERC violations — skip repair loop"

def runErcRepairLoop (max_iterations : ℤ) : Except String (List LedgerEntry) := do
  let before_count ← stages.erc_run
  if before_count = 0 then
    pure [cleanEntry]
  else
    let repair_result ← stages.repair_design max_iterations
    pure (repairEntries repair_result ++ [repairSummary before_count repair_result])

def runPlacement : Option ℕ × List LedgerEntry :=
  match stages.place_components with
  | .ok n => (some n, [{ stage := "placement", status := .pass, detail := s!"placed {n} component(s)" }])
  | .error exc => (none, [{ stage := "placement", status := .fail, detail := s!"placement error: {exc}" }])

/-- The nets that are routed, and all nets: by the grid router, or by the other one when that has routed
nothing. -/
def routedNets : Except String (ℕ × ℕ) := do
  let (routed, total) ← stages.grid_route
  if routed > 0 then pure (routed, total)
  else
    let routed ← stages.route_design_smart
    pure (routed, routed)

def runRouting : List LedgerEntry :=
  match routedNets stages with
  | .ok (routed, total) =>
    [{ stage := "routing", status := if routed > 0 then .pass else .noReference,
       detail := s!"routed {routed}/{total} net(s)" }]
  | .error exc => [{ stage := "routing", status := .fail, detail := s!"routing error: {exc}" }]

/-- The loop over the runs of the design rules, which ends when nothing is found: the last count, and the
runs that are done. -/
def drcIterate : ℕ → ℕ → ℕ → ℕ → Except DrcException (ℕ × ℕ)
  | 0, _, count, iterations_done => pure (count, iterations_done)
  | remaining + 1, iteration_idx, _, _ => do
    let count ← stages.drc_run (iteration_idx + 1)
    if count = 0 then pure (count, iteration_idx + 1)
    else drcIterate remaining (iteration_idx + 1) count (iteration_idx + 1)

/-- The counts before and after the loop, and the runs that are done. -/
def drcCounts (max_iterations : ℤ) : Except DrcException (ℕ × ℕ × ℕ) := do
  stages.drc_runner
  let before_count ← stages.drc_run 0
  let (count, iterations_done) ← drcIterate stages max_iterations.toNat 0 before_count 0
  pure (before_count, count, iterations_done)

def runDrcRepairLoop (max_iterations : ℤ) : Except String (List LedgerEntry) :=
  match drcCounts stages max_iterations with
  | .ok (before_count, count, iterations_done) =>
    .ok [{ stage := "drc_repair"
           iteration := iterations_done - 1
           status := if count = 0 then .pass else .fail
           before_count := some before_count
           after_count := some count
           detail := s!"{count} DRC violation(s) remaining after {iterations_done} iteration(s)" }]
  | .error .unavailable =>
    .ok [{ stage := "drc_repair", status := .skipped,
           detail := "DRC runner not available; recorded as explicit skip" }]
  | .error (.other text) => .error text

/-- A status that is none of the four is an exception, and so a skip. -/
def runSimulationGate : List LedgerEntry :=
  match stages.run_simulation_gate with
  | .ok (value, reason) =>
    match StageStatus.ofValue value with
    | some status => [{ stage := "simulation_gate", status := status, detail := reason }]
    | none =>
      [{ stage := "simulation_gate", status := .skipped,
         detail := s!"simulation gate unavailable: '{value}' is not a valid StageStatus" }]
  | .error exc =>
    [{ stage := "simulation_gate", status := .skipped, detail := s!"simulation gate unavailable: {exc}" }]

/-- The generators of artifacts, in their order. -/
def generators : List (String × Except String String) :=
  [("bom_csv", stages.bom_csv), ("bom_json", stages.bom_json), ("report", stages.report),
    ("svg", stages.svg)]

def buildProofPack (design_name : String) : ProofPack × List LedgerEntry :=
  let artifacts := (generators stages).filterMap fun (label, answer) =>
    answer.toOption.map fun content => (label, content)
  let errors := (generators stages).filter fun (_, answer) => answer.toOption.isNone
  let status : StageStatus := if artifacts ≠ [] ∧ errors = [] then .pass else .fail
  (⟨design_name, artifacts⟩,
    [{ stage := "proof_pack", status := status
       detail := s!"{artifacts.length} artifact(s) packed" ++
         (if errors ≠ [] then s!"; {errors.length} error(s)" else "") }])

/-! ## The loop -/

def ercBlockingStage (erc_summary : Option LedgerEntry) : Option String :=
  match erc_summary with
  | some entry => if entry.status = .fail then some "erc_repair" else none
  | none => none

/-- The stage that blocks at the end: the artifacts, when no stage did before. -/
def packBlockingStage (ledger : List LedgerEntry) (blocking_stage : Option String) : Option String :=
  match ledger.getLast? with
  | some entry =>
    if entry.stage = "proof_pack" ∧ entry.status = .fail ∧ blocking_stage = none then some "proof_pack"
    else blocking_stage
  | none => blocking_stage

def runMultiDomainLoop (intent : String) (max_erc_iterations max_drc_iterations : ℤ) :
    Except String LoopResult :=
  match runSynthesis stages intent with
  | (none, ledger) =>
    .ok { design_name := "", intent := intent, converged := false, blocking_stage := some "synthesis",
          ledger := ledger }
  | (some design_name, ledger) => do
    let erc_entries ← runErcRepairLoop stages max_erc_iterations
    let ledger := ledger ++ erc_entries
    let erc_summary := ledger.reverse.find? fun e => e.stage = "erc_repair_summary"
    let erc_violations_remaining := (erc_summary.bind LedgerEntry.after_count).getD 0
    let blocking_stage := ercBlockingStage erc_summary
    let (positions, placement_entries) := runPlacement stages
    let ledger := ledger ++ placement_entries
    let blocking_stage :=
      if positions = none ∧ blocking_stage = none then some "placement" else blocking_stage
    let ledger := if positions ≠ none then ledger ++ runRouting stages else ledger
    let drc_entries ← runDrcRepairLoop stages max_drc_iterations
    let ledger := ledger ++ drc_entries
    let ledger := ledger ++ runSimulationGate stages
    let (proof_pack, pack_entries) := buildProofPack stages design_name
    let ledger := ledger ++ pack_entries
    let blocking_stage := packBlockingStage ledger blocking_stage
    pure { design_name := design_name
           intent := intent
           converged := blocking_stage.isNone
           blocking_stage := blocking_stage
           ledger := ledger
           proof_pack := some proof_pack
           erc_violations_remaining := erc_violations_remaining }

/-! ## Latest statuses -/

theorem get?_stageStatuses_concat (ledger : List LedgerEntry) (entry : LedgerEntry) (stage : String) :
    (stageStatuses (ledger ++ [entry])).get? stage =
      if stage = entry.stage then some entry.status else (stageStatuses ledger).get? stage := by
  rw [stageStatuses, foldl_append]
  exact Dict.get?_set _ _ _ _

theorem get?_stageStatuses_append (xs ys : List LedgerEntry) (stage : String) :
    (stageStatuses (xs ++ ys)).get? stage =
      ((stageStatuses ys).get? stage).or ((stageStatuses xs).get? stage) := by
  induction ys using reverseRecOn with
  | nil => rw [append_nil]; rfl
  | append_singleton ys entry ih =>
    rw [← append_assoc, get?_stageStatuses_concat, get?_stageStatuses_concat, ih]
    split_ifs <;> rfl

variable {ledger : List LedgerEntry}

theorem exists_of_get?_stageStatuses {stage : String} {status : StageStatus}
    (h : (stageStatuses ledger).get? stage = some status) :
    ∃ entry ∈ ledger, entry.stage = stage ∧ entry.status = status := by
  induction ledger using reverseRecOn with
  | nil => cases h
  | append_singleton ledger entry ih =>
    rw [get?_stageStatuses_concat] at h
    split_ifs at h with hstage
    · exact ⟨entry, by simp, hstage.symm, Option.some.inj h⟩
    · obtain ⟨entry', hmem, hentry'⟩ := ih h
      exact ⟨entry', mem_append_left _ hmem, hentry'⟩

/-- The latest status of every stage is a pass, a skip or a lack of reference. -/
def Settled (ledger : List LedgerEntry) : Prop :=
  ∀ stage status, (stageStatuses ledger).get? stage = some status →
    status ∈ [StageStatus.pass, .skipped, .noReference]

theorem settled_nil : Settled [] := fun _ _ h => nomatch h

/-- All entries of a part of a ledger have one of these stages. -/
def Labelled (labels : List String) (ledger : List LedgerEntry) : Prop := ∀ e ∈ ledger, e.stage ∈ labels

theorem Labelled.append {ls ms : List String} {xs ys : List LedgerEntry} (hxs : Labelled ls xs)
    (hys : Labelled ms ys) : Labelled (ls ++ ms) (xs ++ ys) := fun e he =>
  (mem_append.mp he).elim (fun h => mem_append_left _ (hxs e h))
    fun h => mem_append_right _ (hys e h)

theorem Labelled.get?_eq_none {labels : List String} {stage : String} (h : Labelled labels ledger)
    (hstage : stage ∉ labels) : (stageStatuses ledger).get? stage = none := by
  cases hget : (stageStatuses ledger).get? stage with
  | none => rfl
  | some status =>
    obtain ⟨entry, hmem, rfl, -⟩ := exists_of_get?_stageStatuses hget
    exact absurd (h entry hmem) hstage

/-- Two parts of a ledger with different stages are settled on their own. -/
theorem settled_append {ls ms : List String} {xs ys : List LedgerEntry} (hxs : Labelled ls xs)
    (hys : Labelled ms ys) (hdisjoint : ∀ l ∈ ls, l ∉ ms) :
    Settled (xs ++ ys) ↔ Settled xs ∧ Settled ys := by
  constructor
  · refine fun h => ⟨fun stage status hget => h stage status ?_, fun stage status hget => h stage status ?_⟩
    · obtain ⟨entry, hmem, rfl, -⟩ := exists_of_get?_stageStatuses hget
      rw [get?_stageStatuses_append, hys.get?_eq_none (hdisjoint _ (hxs entry hmem)), hget]
      rfl
    · rw [get?_stageStatuses_append, hget]
      rfl
  · rintro ⟨hx, hy⟩ stage status hget
    rw [get?_stageStatuses_append] at hget
    cases hlast : (stageStatuses ys).get? stage with
    | none => exact hx stage status (by simpa [hlast] using hget)
    | some status' => exact hy stage status (by simpa [hlast] using hget)
variable {entry : LedgerEntry}

theorem settled_singleton : Settled [entry] ↔ entry.status ≠ .fail := by
  have hget (stage : String) : (stageStatuses [entry]).get? stage =
      if stage = entry.stage then some entry.status else none := get?_stageStatuses_concat [] entry stage
  constructor
  · intro h hfail
    have hmem := h entry.stage entry.status (by rw [hget, if_pos rfl])
    rw [hfail] at hmem
    exact absurd hmem (by decide)
  · intro h stage status hstatus
    rw [hget] at hstatus
    split_ifs at hstatus
    obtain rfl := Option.some.inj hstatus
    cases hentry : entry.status with
    | fail => exact absurd hentry h
    | _ => decide

theorem settled_concat {ls : List String} (hledger : Labelled ls ledger) (hentry : entry.stage ∉ ls) :
    Settled (ledger ++ [entry]) ↔ Settled ledger ∧ entry.status ≠ .fail := by
  have hone : Labelled [entry.stage] [entry] := fun e he => by simp [mem_singleton.mp he]
  rw [settled_append hledger hone (fun l hl => by simpa using ne_of_mem_of_not_mem hl hentry),
    settled_singleton]

theorem Labelled.concat {ls : List String} {label : String} (hledger : Labelled ls ledger)
    (hentry : entry.stage = label) : Labelled (ls ++ [label]) (ledger ++ [entry]) :=
  hledger.append fun e he => by simp [mem_singleton.mp he, hentry]

theorem settled_concat_of_same {label : String} (hledger : Labelled [label] ledger) (hentry : entry.stage = label)
    (hstatus : entry.status ≠ .fail) : Settled (ledger ++ [entry]) := by
  intro stage status hget
  rw [get?_stageStatuses_concat] at hget
  split_ifs at hget with hstage
  · exact settled_singleton.mpr hstatus stage status
      ((get?_stageStatuses_concat [] entry stage).trans ((if_pos hstage).trans hget))
  · rw [hledger.get?_eq_none (by simpa [← hentry] using hstage)] at hget
    cases hget

end ZapTrace.Pipeline.MultiDomain
