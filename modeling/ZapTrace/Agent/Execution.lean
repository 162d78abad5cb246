import Mathlib.Data.List.Pairwise
import ZapTrace.Library.FileTree
import ZapTrace.Agent.Session

/-!
# Publishing a worker's outputs and committing its state

A job stages the outputs of a worker below a private staging root. When the worker has succeeded,
the coordinator publishes each staged output at its target, keeping what stood there as a backup,
then commits the session, reports the commit and writes a recovery journal between the steps. A
step that raises is followed by a rollback. One step, `Job.fault`, may raise besides the refusals
of the file system itself.

## Main results

* `exists_staging`: what `prepareOutputStaging` accepts is a staging
-/

namespace ZapTrace

open Prog

/-- An absolute path without symbolic links, by its components. -/
abbrev Path := List String

/-- The phases the recovery journal records. -/
inductive JournalPhase
  | worker_running
  | publishing_outputs
  | committing_state
  | committed
deriving DecidableEq

/-- The content of a file: an output of a tool, or a recovery journal. -/
inductive Content
  | output (data : String)
  | journal (job_id session_id tool_name : String) (phase : JournalPhase)
deriving DecidableEq

/-- A file system as the coordinator sees it. -/
abbrev Fs := FileTree String Content

/-- The steps of a commit at which an exception can be raised; publication steps name the position
of the stage they work on. -/
inductive Step
  | journal (phase : JournalPhase) (e : PyError)
  | makeTargetDir (i : ℕ)
  | makeBackupDir (i : ℕ)
  | replaceTarget (i : ℕ)
  | replaceStaged (i : ℕ)
  | session (fault : SessionFault)
  | event (e : PyError)
deriving DecidableEq

/-- Whether a step belongs to the publication of the staged outputs. -/
def Step.publishes : Step → Bool
  | .makeTargetDir _ | .makeBackupDir _ | .replaceTarget _ | .replaceStaged _ => true
  | _ => false

/-- One staged output of a job. -/
structure OutputStage where
  parameter : String
  staged_path : Path
  target_path : Path
  public_value : String
  backup_path : Path
deriving DecidableEq

/-- A job: its private staging root, its identity, the event sink, which may write to the session,
and the one step that raises. -/
structure Job where
  staging_root : Path
  job_id : String
  session_id : String
  tool_name : String
  event_sink : Option (Session → Session)
  py : PyText
  fault : Option Step

/-- What the coordinator works on: the file system and the parent session. -/
structure World where
  fs : Fs
  parent : ParentState

/-! ## Staging -/

/-- A parameter of a tool, and whether its path policy declares it an output. -/
structure ToolParameter where
  name : String
  output : Bool

/-- `_resolve_workspace_path`: a resolved path outside the workspace is refused. -/
def resolveWorkspacePath (realpath : String → Path) (workspace : Path) (raw : String) :
    Except PyError Path :=
  if workspace <+: realpath raw then .ok (realpath raw) else .error .valueError

def Path.toText (p : Path) : String :=
  if p = [] then "/" else String.join (p.map fun component => "/" ++ component)

/-- `_output_stage_for_parameter`: the staging record of a declared output parameter whose argument
is a nonempty string, and the arguments with the parameter redirected to the staged path. -/
def outputStageForParameter (resolve : String → Except PyError Path) (staging_root : Path)
    (index : ℕ) (parameter : ToolParameter) (rewritten : String → Option PyValue) :
    Except PyError (Option OutputStage × (String → Option PyValue)) :=
  match parameter.output, rewritten parameter.name with
  | true, some (.str raw) =>
    if raw = "" then .ok (none, rewritten)
    else do
      let target ← resolve raw
      let staged := staging_root ++ ["outputs", toString index, target.getLast?.getD parameter.name]
      pure
        (some
          { parameter := parameter.name
            staged_path := staged
            target_path := target
            public_value := raw
            backup_path := staging_root ++ ["backups", toString index] },
          Function.update rewritten parameter.name (some (.str (Path.toText staged))))
  | _, _ => .ok (none, rewritten)

/-- The staging records of the parameters in order, from position `index` on. -/
def collectStages (resolve : String → Except PyError Path) (staging_root : Path) :
    ℕ → List ToolParameter → (String → Option PyValue) →
      Except PyError (List OutputStage × (String → Option PyValue))
  | _, [], rewritten => .ok ([], rewritten)
  | index, parameter :: parameters, rewritten => do
    let (stage, rewritten) ← outputStageForParameter resolve staging_root index parameter rewritten
    let (stages, rewritten) ← collectStages resolve staging_root (index + 1) parameters rewritten
    pure (stage.toList ++ stages, rewritten)

/-- `_validate_non_overlapping_output_targets`: targets whose publication order would be ambiguous
are refused. -/
def validateNonOverlappingOutputTargets : List OutputStage → Except PyError Unit
  | [] => .ok ()
  | left :: stages =>
    if stages.any fun right => decide (Overlap left.target_path right.target_path) then
      .error .valueError
    else validateNonOverlappingOutputTargets stages

/-- `_prepare_output_staging`: rewrite declared output parameters to private job-local paths. -/
def prepareOutputStaging (resolve : String → Except PyError Path) (staging_root : Path)
    (parameters : List ToolParameter) (kwargs : String → Option PyValue) :
    Except PyError ((String → Option PyValue) × List OutputStage) := do
  let (stages, rewritten) ← collectStages resolve staging_root 0 parameters kwargs
  validateNonOverlappingOutputTargets stages
  pure (rewritten, stages)

/-- The staged outputs of a job: targets do not overlap, each stage has its own slot below the
staging root, and no target lies in the staging root, whose name the caller cannot know. -/
structure Staging where
  root : Path
  stages : List OutputStage
  /-- `_validate_non_overlapping_output_targets` accepted the targets. -/
  targets : stages.Pairwise fun a b => ¬ Overlap a.target_path b.target_path
  /-- Each stage has a slot of its own for its backup. -/
  backups : stages.Pairwise fun a b => a.backup_path ≠ b.backup_path
  /-- Where the staged output and the backup of a stage lie. -/
  layout : ∀ stage ∈ stages, ∃ slot name,
    stage.staged_path = root ++ ["outputs", slot, name] ∧
      stage.backup_path = root ++ ["backups", slot]
  /-- The staging root is freshly made and private to the job. -/
  private_root : ∀ stage ∈ stages, ¬ root <+: stage.target_path

theorem toString_injective {m n : ℕ} (h : toString m = toString n) : m = n := by
  have hdigits := congrArg (fun s => Nat.ofDigitChars 10 s.toList 0) h
  simpa [Nat.ofDigitChars_toDigits] using hdigits

theorem pairwise_of_validate {stages : List OutputStage}
    (h : validateNonOverlappingOutputTargets stages = .ok ()) :
    stages.Pairwise fun a b => ¬ Overlap a.target_path b.target_path := by
  induction stages with
  | nil => exact List.Pairwise.nil
  | cons left stages ih =>
    rw [validateNonOverlappingOutputTargets] at h
    split at h
    · cases h
    · rename_i hany
      refine List.pairwise_cons.mpr ⟨fun right hr hoverlap => hany ?_, ih h⟩
      exact List.any_eq_true.mpr ⟨right, hr, by simpa using hoverlap⟩

section Collect

variable {resolve : String → Except PyError Path} {root : Path} {kwargs rewritten : String → Option PyValue}

/-- The staging record of an argument, in the slot of its position. -/
structure StageAt (resolve : String → Except PyError Path) (root : Path) (kwargs : String → Option PyValue)
    (index : ℕ) (stage : OutputStage) : Prop where
  staged : ∃ name, stage.staged_path = root ++ ["outputs", toString index, name]
  backup : stage.backup_path = root ++ ["backups", toString index]
  target : ∃ raw, kwargs stage.parameter = some (.str raw) ∧ resolve raw = .ok stage.target_path

theorem outputStageForParameter_spec {index : ℕ} {parameter : ToolParameter} {stage : Option OutputStage}
    (h : outputStageForParameter resolve root index parameter kwargs = .ok (stage, rewritten)) :
    (∀ name ≠ parameter.name, rewritten name = kwargs name) ∧
      ∀ s ∈ stage, s.parameter = parameter.name ∧ StageAt resolve root kwargs index s := by
  unfold outputStageForParameter at h
  split at h
  · rename_i raw _ hkwargs
    split at h
    · cases h
      simp
    · cases hraw : resolve raw with
      | error e => simp [hraw, bind, Except.bind] at h
      | ok target =>
        simp only [hraw, bind, Except.bind, pure, Except.pure] at h
        cases h
        refine ⟨fun name hne => Function.update_of_ne hne _ _, fun s hs => ?_⟩
        cases hs
        exact ⟨rfl, ⟨_, rfl⟩, rfl, raw, hkwargs, hraw⟩
  · cases h
    simp

/-- The staging records that are collected have slots of their own. -/
theorem stageAt_of_collectStages {parameters : List ToolParameter} {index : ℕ} {stages : List OutputStage}
    (h : collectStages resolve root index parameters kwargs = .ok (stages, rewritten))
    (hnames : (parameters.map ToolParameter.name).Nodup) :
    (∀ stage ∈ stages, stage.parameter ∈ parameters.map ToolParameter.name ∧
        ∃ i, index ≤ i ∧ StageAt resolve root kwargs i stage) ∧
      stages.Pairwise fun a b => a.backup_path ≠ b.backup_path := by
  induction parameters generalizing index kwargs rewritten stages with
  | nil =>
    cases h
    simp
  | cons parameter parameters ih =>
    rw [collectStages] at h
    rcases hfirst : outputStageForParameter resolve root index parameter kwargs with
      e | ⟨stage, kwargs'⟩
    · simp [hfirst, bind, Except.bind] at h
    rcases hrest : collectStages resolve root (index + 1) parameters kwargs' with
      e | ⟨stages', rewritten'⟩
    · simp [hfirst, hrest, bind, Except.bind] at h
    simp only [hfirst, hrest, bind, Except.bind, pure, Except.pure] at h
    obtain ⟨hfresh, hnames⟩ := List.nodup_cons.mp hnames
    obtain ⟨hslots, hpairwise⟩ := ih hrest hnames
    obtain ⟨hframe, hstage⟩ := outputStageForParameter_spec hfirst
    have hlater : ∀ stage ∈ stages', stage.parameter ∈ (parameter :: parameters).map ToolParameter.name ∧
        ∃ i, index ≤ i ∧ StageAt resolve root kwargs i stage := by
      intro stage hs
      obtain ⟨hparameter, i, hi, hstaged, hbackup, htarget⟩ := hslots stage hs
      rw [hframe _ fun heq => hfresh (heq ▸ hparameter)] at htarget
      exact ⟨List.mem_cons_of_mem _ hparameter, i, by omega, hstaged, hbackup, htarget⟩
    cases stage with
    | none =>
      cases h
      exact ⟨hlater, hpairwise⟩
    | some stage =>
      cases h
      obtain ⟨hname, hstage⟩ := hstage stage rfl
      refine ⟨fun other ho => ?_, List.pairwise_cons.mpr ⟨fun other ho heq => ?_, hpairwise⟩⟩
      · rcases List.mem_cons.mp ho with rfl | ho
        · exact ⟨hname ▸ List.mem_cons_self, index, le_rfl, hstage⟩
        · exact hlater other ho
      · -- the slots that come later have larger positions
        obtain ⟨-, i, hi, hat⟩ := hslots other ho
        rw [hstage.backup, hat.backup] at heq
        have hindex : index = i := toString_injective (by simpa using heq)
        omega

/-- **What `_prepare_output_staging` accepts is a staging**, when no argument names a path in the
staging root. -/
theorem exists_staging {parameters : List ToolParameter} {stages : List OutputStage}
    (h : prepareOutputStaging resolve root parameters kwargs = .ok (rewritten, stages))
    (hnames : (parameters.map ToolParameter.name).Nodup)
    (hprivate : ∀ name raw target, kwargs name = some (.str raw) → resolve raw = .ok target → ¬ root <+: target) :
    ∃ staging : Staging, staging.root = root ∧ staging.stages = stages := by
  unfold prepareOutputStaging at h
  rcases hcollect : collectStages resolve root 0 parameters kwargs with e | ⟨stages', rewritten'⟩
  · simp [hcollect, bind, Except.bind] at h
  rcases hvalid : validateNonOverlappingOutputTargets stages' with e | ⟨⟩
  · simp [hcollect, hvalid, bind, Except.bind] at h
  simp only [hcollect, hvalid, bind, Except.bind, pure, Except.pure] at h
  cases h
  obtain ⟨hslots, hbackups⟩ := stageAt_of_collectStages hcollect hnames
  refine ⟨⟨root, stages, pairwise_of_validate hvalid, hbackups, fun stage hs => ?_,
    fun stage hs => ?_⟩, rfl, rfl⟩
  · obtain ⟨-, i, -, ⟨name, hstaged⟩, hbackup, -⟩ := hslots stage hs
    exact ⟨toString i, name, hstaged, hbackup⟩
  · obtain ⟨-, i, -, -, -, raw, hkwargs, hraw⟩ := hslots stage hs
    exact hprivate _ raw _ hkwargs hraw

theorem exists_staging_oneOutput :
    ∃ staging : Staging, staging.root = ["workspace", "job"] ∧ staging.stages =
      [⟨"output_path", ["workspace", "job", "outputs", "0", "out.svg"], ["workspace", "out.svg"], "out.svg",
        ["workspace", "job", "backups", "0"]⟩] := by
  refine exists_staging (show prepareOutputStaging (resolveWorkspacePath (fun raw => ["workspace", raw]) ["workspace"])
    ["workspace", "job"] [⟨"output_path", true⟩] (fun _ => some (.str "out.svg")) = .ok (_, _) from rfl)
    (List.nodup_singleton _) fun name raw target hraw h => ?_
  cases hraw
  cases h
  decide

end Collect

/-! ## Rewriting staged paths -/

/-- A string that names a staged path, or a path below one, is given its public name. -/
def rewriteStagedText (stages : List OutputStage) (value : String) : String :=
  match stages with
  | [] => value
  | stage :: stages =>
    let staged := Path.toText stage.staged_path
    if value = staged then stage.public_value
    else if (staged ++ "/").toList <+: value.toList then
      let trimmed := (stage.public_value.toList.reverse.dropWhile fun c => c = '/' ∨ c = '\\').reverse
      String.ofList trimmed ++ String.ofList (value.toList.drop staged.length)
    else rewriteStagedText stages value

mutual

def rewriteStagedPaths (stages : List OutputStage) : PyValue → PyValue
  | .str value => .str (rewriteStagedText stages value)
  | .dict items => .dict (rewriteStagedItems stages items)
  | .list values => .list (rewriteStagedValues stages values)
  | .tuple values => .tuple (rewriteStagedValues stages values)
  | .set values => .set (rewriteStagedValues stages values)
  | value => value

/-- The elements of a collection, rewritten. -/
def rewriteStagedValues (stages : List OutputStage) : List PyValue → List PyValue
  | [] => []
  | value :: values => rewriteStagedPaths stages value :: rewriteStagedValues stages values

/-- The items of a dictionary, their values rewritten. -/
def rewriteStagedItems (stages : List OutputStage) :
    List (PyValue × PyValue) → List (PyValue × PyValue)
  | [] => []
  | (key, value) :: items =>
    (key, rewriteStagedPaths stages value) :: rewriteStagedItems stages items

end

/-- `_rewrite_staged_paths` on a session state. -/
def rewriteSession (stages : List OutputStage) (session : Session) : Session where
  designs := session.designs.map fun designs =>
    .dict fun name => (designs.items name).map (rewriteStagedPaths stages)
  entries := fun key => (session.entries key).map (rewriteStagedPaths stages)

/-! ## Publication and rollback -/

/-- What publication works on: the file system and the stages it has touched so far. -/
structure PublishState where
  fs : Fs
  touched : List OutputStage

/-- A call into the file system: it raises an `OSError` when it is refused. -/
def osCall (op : Fs → Except Errno Fs) : Prog Fs PyError Unit :=
  attempt fun fs => (op fs).mapError fun _ => .osError

/-- A call into the file system at a step that may be the one to raise. -/
def osStep (job : Job) (step : Step) (op : Fs → Except Errno Fs) : Prog PublishState PyError Unit :=
  if job.fault = some step then raise .osError
  else onState PublishState.fs (fun fs s => { s with fs := fs }) (osCall op)

/-- Record a stage whose target must be rolled back. -/
def touch (stage : OutputStage) : Prog PublishState PyError Unit :=
  modify fun s => { s with touched := s.touched ++ [stage] }

/-- The body of the loop of `_publish_staged_outputs`, on the stage at position `i`. -/
def publishStage (job : Job) (i : ℕ) (stage : OutputStage) : Prog PublishState PyError Unit := do
  let s ← get
  if s.fs.pathExists stage.staged_path then
    osStep job (.makeTargetDir i) (·.makeDirs stage.target_path.dropLast)
    let s ← get
    if s.fs.lexists stage.target_path then
      osStep job (.makeBackupDir i) (·.makeDirs stage.backup_path.dropLast)
      osStep job (.replaceTarget i) (·.rename stage.target_path stage.backup_path)
      touch stage
      osStep job (.replaceStaged i) (·.rename stage.staged_path stage.target_path)
    else
      osStep job (.replaceStaged i) (·.rename stage.staged_path stage.target_path)
      touch stage
  else pure ()

/-- Remove what stands at the target of a stage, a symbolic link not being followed. -/
def removeTarget (stage : OutputStage) : Prog Fs PyError Unit :=
  modify fun fs => if fs.lexists stage.target_path then fs.remove stage.target_path else fs

/-- Move the backup of a stage, when there is one, back to its target. -/
def restoreBackup (stage : OutputStage) : Prog Fs PyError Unit := do
  let fs ← get
  if fs.lexists stage.backup_path then
    osCall (·.makeDirs stage.target_path.dropLast)
    osCall (·.rename stage.backup_path stage.target_path)
  else pure ()

/-- The body of the loop of `_rollback_published_outputs`. -/
def rollbackStage (stage : OutputStage) : Prog Fs PyError Unit := do
  removeTarget stage
  restoreBackup stage

def rollbackPublishedOutputs (stages : List OutputStage) : Prog Fs PyError Unit :=
  forEach rollbackStage stages.reverse

/-- The loop of `_publish_staged_outputs`. -/
def publishLoop (job : Job) (stages : List OutputStage) : Prog PublishState PyError Unit :=
  forEach (fun (stage, i) => publishStage job i stage) stages.zipIdx

/-- `_publish_staged_outputs`: an `OSError` rolls back what was touched and is raised again. -/
def publishStagedOutputs (job : Job) (stages : List OutputStage) :
    Prog Fs PyError (List OutputStage) := fun fs =>
  match publishLoop job stages ⟨fs, []⟩ with
  | (.ok (), s) => (.ok s.touched, s.fs)
  | (.error .osError, s) => (do rollbackPublishedOutputs s.touched; raise .osError) s.fs
  | (.error e, s) => (.error e, s.fs)

/-! ## Committing a worker response -/

def Job.journalPath (job : Job) : Path := job.staging_root ++ ["recovery.json"]

/-- The temporary name under which a journal is written before it replaces the previous one. -/
def Job.temporaryPath (job : Job) : Path := job.staging_root ++ ["recovery.json.tmp"]

/-- The exception a journal of the given phase raises, when it is the step that raises. -/
def Job.journalFault (job : Job) (phase : JournalPhase) : Option PyError :=
  match job.fault with
  | some (.journal phase' e) => if phase' = phase then some e else none
  | _ => none

/-- The exception the event sink raises, when it is the step that raises. -/
def Job.eventFault (job : Job) : Option PyError :=
  match job.fault with
  | some (.event e) => some e
  | _ => none

/-- Raise the exception of a step that raises. -/
def raiseFault {σ : Type} (fault : Option PyError) : Prog σ PyError Unit :=
  match fault with
  | some e => raise e
  | none => pure ()

@[simp] theorem raiseFault_some {σ : Type} (e : PyError) :
    raiseFault (some e) = (raise e : Prog σ PyError Unit) := rfl

@[simp] theorem raiseFault_none {σ : Type} :
    raiseFault none = (pure () : Prog σ PyError Unit) := rfl

/-- `_write_recovery_journal`: the journal is written under a temporary name and then renamed. -/
def writeRecoveryJournal (job : Job) (phase : JournalPhase) : Prog Fs PyError Unit := do
  osCall (·.write job.temporaryPath (.journal job.job_id job.session_id job.tool_name phase))
  raiseFault (job.journalFault phase)
  osCall (·.rename job.temporaryPath job.journalPath)

/-- `_emit_execution_event` for the commit event. -/
def emitCommitEvent (job : Job) : Prog ParentState PyError Unit :=
  match job.event_sink with
  | none => pure ()
  | some sink => do
    modify fun parent => { parent with session := sink parent.session }
    raiseFault job.eventFault

/-- A program on the file system. -/
def onFs {α : Type} (m : Prog Fs PyError α) : Prog World PyError α :=
  onState World.fs (fun fs w => { w with fs := fs }) m

/-- A program on the parent session. -/
def onParent {α : Type} (m : Prog ParentState PyError α) : Prog World PyError α :=
  onState World.parent (fun parent w => { w with parent := parent }) m

def Job.sessionFault (job : Job) : Option SessionFault :=
  match job.fault with
  | some (.session fault) => some fault
  | _ => none

structure WorkerResponse where
  session_state : Option Session
  result : PyValue

/-- The outcome `_commit_worker_response` returns, its status being `completed`. -/
structure ToolExecutionOutcome where
  result : PyValue
  job_id : String

/-- The block of `_commit_worker_response` that a handler guards; an exception carries the value
`previous_state` had when it was raised. -/
def commitBlock (job : Job) (incoming : Session) : Prog World (PyError × Option Session) Unit := do
  let previous_state ← (onParent (commitSessionState job.py job.sessionFault incoming)).mapError
    fun e => (e, none)
  (onParent (emitCommitEvent job)).mapError fun e => (e, some previous_state)
  (onFs (writeRecoveryJournal job .committed)).mapError fun e => (e, some previous_state)

def restorePreviousState (job : Job) : Option Session → Prog World PyError Unit
  | some previous => onParent (restoreSessionState job.py none previous)
  | none => pure ()

/-- The handler of the guarded block: the session is restored, the outputs are rolled back, and the
exception is raised again. -/
def recoverCommit (job : Job) (published : List OutputStage) (e : PyError)
    (previous_state : Option Session) : Prog World PyError Unit := do
  restorePreviousState job previous_state
  onFs (rollbackPublishedOutputs published)
  raise e

def commitWorkerResponse (job : Job) (stages : List OutputStage) (response : WorkerResponse) :
    Prog World PyError ToolExecutionOutcome :=
  match response.session_state with
  | none => raise .keyError
  | some state => do
    let incoming := rewriteSession stages state
    let result := rewriteStagedPaths stages response.result
    onFs (writeRecoveryJournal job .publishing_outputs)
    let published ← onFs (publishStagedOutputs job stages)
    onFs (writeRecoveryJournal job .committing_state)
    (commitBlock job incoming).handle fun (e, previous_state) =>
      recoverCommit job published e previous_state
    pure ⟨result, job.job_id⟩

end ZapTrace
