import ZapTrace.Agent.Publication

/-!
# What a commit that raises leaves

A commit publishes the outputs, commits the session and reports it, with recovery journals in
between. Whatever step raises, the targets and the session are as they were, with one exception:
the journal written between publication and the session commit lies outside the block whose
handler rolls back, so that outputs already published stay.

## Main results

* `writeRecoveryJournal_spec`: a recovery journal is written unless it is the step that raises
* `commitBlock_spec`: the guarded block restores the session and every target
* `commitWorkerResponse_spec`: how a commit raises
* `allOrNothing_iff`: a commit is all or nothing exactly when the second journal does not raise
  after outputs have changed a target
-/

namespace ZapTrace

open FileTree List

variable {staging : Staging} {stage : OutputStage} {job : Job} {t₀ t t' : Fs}

/-! ## The recovery journal -/

/-- The tree is the same apart from the recovery journal of the job. -/
def SameButJournal (job : Job) (t t' : Fs) : Prop :=
  ∀ r, ¬ job.temporaryPath <+: r → ¬ job.journalPath <+: r → t'.node r = t.node r

theorem SameButJournal.trans {t'' : Fs} (h : SameButJournal job t t')
    (h' : SameButJournal job t' t'') : SameButJournal job t t'' :=
  fun r ht hj => (h' r ht hj).trans (h r ht hj)

namespace SameButJournal

theorem keeps (h : SameButJournal job t t') (hroot : job.staging_root = staging.root)
    (hs : stage ∈ staging.stages) : Keeps staging stage t t' := by
  have htmp := Staging.not_overlap_journal hs (by simp : "recovery.json.tmp" ∈ _)
  have hjournal := Staging.not_overlap_journal hs (by simp : "recovery.json" ∈ _)
  simp only [SameButJournal, Job.temporaryPath, Job.journalPath, hroot] at h
  refine ⟨fun r hr => ?_, fun r hr => ?_, fun r hr => ?_, fun r hr => .inl ?_⟩
  · exact h r (fun hp => hr.2 ((prefix_append _ _).trans hp))
      fun hp => hr.2 ((prefix_append _ _).trans hp)
  · exact h r (fun hp => htmp.1 (overlap_of_below hr hp))
      fun hp => hjournal.1 (overlap_of_below hr hp)
  · exact h r (fun hp => htmp.2 (overlap_of_below hr hp))
      fun hp => hjournal.2 (overlap_of_below hr hp)
  · have htarget := hr.trans (List.dropLast_prefix _)
    exact h r (Staging.not_root_prefix hs htarget (prefix_append _ _))
      (Staging.not_root_prefix hs htarget (prefix_append _ _))

end SameButJournal

theorem journalFault_eq_some {phase : JournalPhase} {e : PyError} :
    job.journalFault phase = some e ↔ job.fault = some (.journal phase e) := by
  unfold Job.journalFault
  split <;> simp_all

/-- **A recovery journal** is written unless it is the step that raises, and changes nothing
else. -/
theorem writeRecoveryJournal_spec (hroot : job.staging_root = staging.root) (phase : JournalPhase)
    (hready : RootReady staging t₀) :
    Prog.Triple (fun t => t = t₀) (writeRecoveryJournal job phase)
      (fun _ t => SameButJournal job t₀ t ∧ RootReady staging t ∧
        ∀ e, job.fault ≠ some (.journal phase e))
      (fun e t => SameButJournal job t₀ t ∧ RootReady staging t ∧
        job.fault = some (.journal phase e)) := by
  rintro t₀ rfl
  have htmp : job.temporaryPath = staging.root ++ ["recovery.json.tmp"] := by
    rw [Job.temporaryPath, hroot]
  have hjournal : job.journalPath = staging.root ++ ["recovery.json"] := by
    rw [Job.journalPath, hroot]
  obtain ⟨t₁, hwrite⟩ := exists_write
    (.journal job.job_id job.session_id job.tool_name phase)
    (by simpa [htmp] using hready.root) (htmp ▸ hready.journal _ (by simp))
  have hnode₁ := write_eq_ok hwrite
  have hne : ∀ r, r ≠ job.temporaryPath → t₁.node r = t₀.node r := fun r hr => by
    rw [hnode₁, if_neg hr]
  have hready₁ : RootReady staging t₁ := by
    refine ⟨?_, ?_, fun name hname => ?_⟩
    · rw [hne _ (by simp [htmp]), hready.root]
    · rw [hne _ (by simp [htmp])]
      exact hready.backups
    · rw [hnode₁]
      split
      · simp
      · exact hready.journal name hname
  have hsame₁ : SameButJournal job t₀ t₁ := fun r hr _ =>
    hne r fun heq => hr (heq ▸ prefix_refl _)
  rw [writeRecoveryJournal, Prog.bind_of_ok (osCall_of_ok hwrite)]
  cases hfault : job.journalFault phase with
  | some e =>
    rw [raiseFault_some, Prog.raise_bind]
    exact ⟨hsame₁, hready₁, journalFault_eq_some.mp hfault⟩
  | none =>
    have hfile := hnode₁ job.temporaryPath
    rw [if_pos rfl] at hfile
    obtain ⟨t₂, hren⟩ : ∃ t₂, t₁.rename job.temporaryPath job.journalPath = .ok t₂ :=
      exists_rename_file hfile (by simpa [hjournal] using hready₁.root) (by simp [htmp, hjournal])
      (hjournal ▸ hready₁.journal _ (by simp))
    have hnode₂ := (rename_eq_ok (by simp [htmp, hjournal]) hren).2.2.2
    have hsame₂ : SameButJournal job t₁ t₂ := fun r ht hj => by rw [hnode₂, if_neg hj, if_neg ht]
    rw [raiseFault_none, Prog.pure_bind_apply, osCall_of_ok hren]
    refine ⟨hsame₁.trans hsame₂, ⟨?_, ?_, ?_⟩, fun e he => ?_⟩
    · rw [hsame₂ _ (by simp [htmp]) (by simp [hjournal]), hready₁.root]
    · rw [hsame₂ _ (by simp [htmp]) (by simp [hjournal])]
      exact hready₁.backups
    · -- the journal is the file just written, and its temporary name is free again
      intro name hname
      rcases mem_pair.mp hname with rfl | rfl
      · simp [← hjournal, hnode₂, hfile]
      · rw [← htmp, hnode₂]
        simp [htmp, hjournal]
    · rw [journalFault_eq_some.mpr he] at hfault
      cases hfault

theorem Rollbackable.sameButJournal {touched : List OutputStage}
    (h : Rollbackable staging t₀ touched t) (hroot : job.staging_root = staging.root)
    (hsame : SameButJournal job t t') (hready : RootReady staging t') :
    Rollbackable staging t₀ touched t' where
  ready := hready
  nodup := h.nodup
  subset := h.subset
  undo stage hs := (hsame.keeps hroot (h.subset hs)).touched (h.undo stage hs)
  others stage hs hn := (h.others stage hs hn).trans (hsame.keeps hroot hs).target

theorem AllPublished.sameButJournal {published : List OutputStage}
    (h : AllPublished staging t₀ published t) (hroot : job.staging_root = staging.root)
    (hsame : SameButJournal job t t') (hready : RootReady staging t') :
    AllPublished staging t₀ published t' where
  ready := hready
  published_eq := h.published_eq
  moved stage hs :=
    have hmem := h.rollbackable.subset hs
    (hsame.keeps hroot hmem).published hmem (h.moved stage hs)
  others stage hs hn := (h.others stage hs hn).trans (hsame.keeps hroot hs).target

/-! ## The session -/

section Sessions

variable {py : PyText} {fault : Option SessionFault} {incoming : Session}
  {parent parent' : ParentState}

theorem Session.SameValue.refl (session : Session) : session.SameValue session := ⟨rfl, rfl⟩

/-- A session commit raises and leaves the session with the value it had, or returns the snapshot
of the session before it. -/
theorem commitSessionState_cases (hdesigns : parent.session.designs.isSome) :
    (∃ e parent', commitSessionState py fault incoming parent = (.error e, parent') ∧
      parent'.session.SameValue parent.session) ∨
    parent.destroyed = false ∧ commitSessionState py fault incoming parent =
      (.ok (cloneSessionState parent.session), replacedState py parent incoming true) := by
  cases hlive : parent.destroyed with
  | true => exact .inl ⟨_, _, commitSessionState_of_destroyed hlive fault, .refl _⟩
  | false =>
    rcases fault with _ | ⟨e | e | e⟩
    · exact .inr ⟨rfl, commitSessionState_apply hlive (by simp) (by simp) (by simp)⟩
    · exact .inl ⟨_, _, commitSessionState_of_clone_fault hlive e, .refl _⟩
    · exact .inl ⟨_, _, commitSessionState_of_merge_fault hlive e,
        sameValue_replacedState_clone hdesigns⟩
    · obtain ⟨designs, hd⟩ := Option.isSome_iff_exists.mp hdesigns
      -- only a mapping bound to the store can meet a store failure
      cases designs with
      | dict items =>
        exact .inr ⟨rfl, commitSessionState_apply hlive (by simp) (by simp)
          (by simp [Session.getDesigns, hd])⟩
      | persistent session_id items =>
        exact .inl ⟨_, _, commitSessionState_of_replaceAll_fault hlive e hd,
          ⟨by simp [hd, DesignMapping.items], rfl⟩⟩

theorem emitCommitEvent_destroyed (job : Job) (parent : ParentState) :
    (emitCommitEvent job parent).2.destroyed = parent.destroyed := by
  unfold emitCommitEvent
  cases job.event_sink with
  | none => rfl
  | some sink => cases h : job.eventFault <;> simp

end Sessions

/-! ## The guarded block -/

section Block

variable {w : World} {published : List OutputStage}

/-- What the handler of the block relies on: the published outputs can be rolled back, and the
session has its value or the snapshot to restore it from is at hand. -/
def Recoverable (staging : Staging) (t₀ : Fs) (parent : ParentState)
    (published : List OutputStage) (previous_state : Option Session) (w : World) : Prop :=
  Rollbackable staging t₀ published w.fs ∧
    match previous_state with
    | none => w.parent.session.SameValue parent.session
    | some previous => previous = cloneSessionState parent.session ∧ w.parent.destroyed = false

/-- The guarded block raises only where its handler can recover. -/
theorem commitBlock_spec (hroot : job.staging_root = staging.root)
    (hdesigns : w.parent.session.designs.isSome)
    (hrollback : Rollbackable staging t₀ published w.fs) (incoming : Session) :
    Prog.Triple (fun w' => w' = w) (commitBlock job incoming) (fun _ _ => True)
      (fun e w' => Recoverable staging t₀ w.parent published e.2 w') := by
  have hcommit : Prog.Triple (fun w' => w' = w)
      ((onParent (commitSessionState job.py job.sessionFault incoming)).mapError
        fun e => (e, (none : Option Session)))
      (fun previous w' => previous = cloneSessionState w.parent.session ∧
        w'.parent.destroyed = false ∧ w'.fs = w.fs)
      (fun e w' => Recoverable staging t₀ w.parent published e.2 w') := by
    refine Prog.Triple.mapError (Prog.Triple.onState ?_)
    rintro w rfl _ rfl
    rcases commitSessionState_cases hdesigns with ⟨e, parent', hrun, hsame⟩ | ⟨hlive, hrun⟩
    · rw [hrun]
      exact ⟨hrollback, hsame⟩
    · rw [hrun]
      exact ⟨rfl, by simpa using hlive, rfl⟩
  have hemit : ∀ previous, Prog.Triple
      (fun w' => previous = cloneSessionState w.parent.session ∧ w'.parent.destroyed = false ∧
        w'.fs = w.fs)
      ((onParent (emitCommitEvent job)).mapError fun e => (e, some previous))
      (fun _ w' => previous = cloneSessionState w.parent.session ∧ w'.parent.destroyed = false ∧
        w'.fs = w.fs)
      (fun e w' => Recoverable staging t₀ w.parent published e.2 w') := by
    intro previous
    refine Prog.Triple.mapError (Prog.Triple.onState ?_)
    rintro w' ⟨hprevious, hlive, hfs⟩ _ rfl
    have hlive' := (emitCommitEvent_destroyed job w'.parent).trans hlive
    rcases hrun : emitCommitEvent job w'.parent with ⟨e | _, parent'⟩
    · exact ⟨hfs ▸ hrollback, hprevious, by simpa [hrun] using hlive'⟩
    · exact ⟨hprevious, by simpa [hrun] using hlive', hfs⟩
  refine Prog.Triple.bind hcommit fun previous => Prog.Triple.bind (hemit previous) fun _ => ?_
  refine Prog.Triple.mapError (Prog.Triple.onState ?_)
  rintro w' ⟨hprevious, hlive, hfs⟩
  refine (writeRecoveryJournal_spec hroot .committed (hfs ▸ hrollback.ready)).consequence
    (fun _ h => h) (fun _ _ _ => trivial) fun e t h => ?_
  exact ⟨(hfs ▸ hrollback).sameButJournal hroot h.1 h.2.1, hprevious, hlive⟩

/-- The targets are as they were in `t₀`, and the session has the value it had. -/
def Unchanged (staging : Staging) (t₀ : Fs) (parent : ParentState) (w : World) : Prop :=
  (∀ stage ∈ staging.stages, AgreeOn (staging.region stage) t₀ w.fs) ∧
    w.parent.session.SameValue parent.session

theorem recoverCommit_spec {parent : ParentState} (hdesigns : parent.session.designs.isSome)
    (e : PyError) (previous_state : Option Session) :
    Prog.Triple (Recoverable staging t₀ parent published previous_state)
      (recoverCommit job published e previous_state)
      (fun _ _ => False) (fun _ => Unchanged staging t₀ parent) := by
  have hrestore : Prog.Triple (Recoverable staging t₀ parent published previous_state)
      (restorePreviousState job previous_state)
      (fun _ w => Rollbackable staging t₀ published w.fs ∧
        w.parent.session.SameValue parent.session)
      (fun _ => Unchanged staging t₀ parent) := by
    rintro w ⟨hrollback, hprevious⟩
    cases previous_state with
    | none => exact ⟨hrollback, hprevious⟩
    | some previous =>
      obtain ⟨rfl, hlive⟩ := hprevious
      rw [restorePreviousState, onParent, Prog.onState_apply, restoreSessionState_apply hlive]
      exact ⟨hrollback, sameValue_replacedState_clone hdesigns⟩
  have hrollback : Prog.Triple
      (fun w => Rollbackable staging t₀ published w.fs ∧
        w.parent.session.SameValue parent.session)
      (onFs (rollbackPublishedOutputs published)) (fun _ => Unchanged staging t₀ parent)
      (fun _ => Unchanged staging t₀ parent) := by
    refine Prog.Triple.onState ?_
    rintro w ⟨hfs, hsession⟩
    exact (rollbackPublishedOutputs_spec published).consequence (fun _ ht => ht ▸ hfs)
      (fun _ _ ht => ⟨ht, hsession⟩) fun _ _ ht => ht.elim
  exact Prog.Triple.bind hrestore fun _ => Prog.Triple.bind hrollback fun _ _ hw => hw

end Block

/-! ## The whole commit -/

section Commit

variable {response : WorkerResponse} {w : World}

/-- What the coordinator has set up when the commit starts: the staging root is the job's own and
in order, no stage has a backup yet, and the session has a `designs` entry. -/
structure CommitReady (job : Job) (staging : Staging) (w : World) : Prop where
  staging_root : job.staging_root = staging.root
  root : RootReady staging w.fs
  fresh : ∀ stage ∈ staging.stages, w.fs.node stage.backup_path = none
  designs : w.parent.session.designs.isSome

/-- **All or nothing**: a commit that raises leaves every target as it was and the parent session
with the value it had. -/
def AllOrNothing (job : Job) (staging : Staging) (response : WorkerResponse) (w : World) : Prop :=
  ∀ e w', commitWorkerResponse job staging.stages response w = (.error e, w') →
    Unchanged staging w.fs w.parent w'

/-- The second recovery journal raises, every stage being publishable. -/
structure JournalFails (job : Job) (staging : Staging) (response : WorkerResponse) (w : World) :
    Prop where
  fault : ∃ e, job.fault = some (.journal .committing_state e)
  session_state : response.session_state.isSome
  publishable : ∀ stage ∈ staging.stages, Publishable staging w.fs stage

/-- The second recovery journal raises after a stage has changed what its target stands for. -/
structure JournalFailsAfterPublication (job : Job) (staging : Staging) (response : WorkerResponse)
    (w : World) : Prop extends JournalFails job staging response w where
  changed : ∃ stage ∈ staging.stages, w.fs.pathExists stage.staged_path = true ∧
    ∃ s, w.fs.node (stage.staged_path ++ s) ≠ w.fs.node (stage.target_path ++ s)

/-- How a commit raises: nothing has changed, or the outputs stay published because the second
journal raised. -/
def CommitFailed (job : Job) (staging : Staging) (response : WorkerResponse) (w w' : World) : Prop :=
  Unchanged staging w.fs w.parent w' ∧ ¬ JournalFails job staging response w ∨
    JournalFails job staging response w ∧ w'.parent = w.parent ∧
      ∃ published, AllPublished staging w.fs published w'.fs

theorem journal_spec (hroot : job.staging_root = staging.root) (phase : JournalPhase)
    (hready : RootReady staging w.fs) :
    Prog.Triple (fun w' => w' = w) (onFs (writeRecoveryJournal job phase))
      (fun _ w' => SameButJournal job w.fs w'.fs ∧ RootReady staging w'.fs ∧
        w'.parent = w.parent ∧ ∀ e, job.fault ≠ some (.journal phase e))
      (fun e w' => SameButJournal job w.fs w'.fs ∧ RootReady staging w'.fs ∧
        w'.parent = w.parent ∧ job.fault = some (.journal phase e)) := by
  refine Prog.Triple.onState ?_
  rintro w rfl
  exact (writeRecoveryJournal_spec hroot phase hready).consequence (fun _ h => h)
    (fun _ _ ⟨hsame, hr, hfault⟩ => ⟨hsame, hr, rfl, hfault⟩)
    fun _ _ ⟨hsame, hr, hfault⟩ => ⟨hsame, hr, rfl, hfault⟩

/-- **What a commit leaves when it raises**, and that it raises when the second journal does. -/
theorem commitWorkerResponse_spec (response : WorkerResponse) (h : CommitReady job staging w) :
    Prog.Triple (fun w' => w' = w) (commitWorkerResponse job staging.stages response)
      (fun _ _ => ¬ JournalFails job staging response w)
      (fun _ w' => CommitFailed job staging response w w') := by
  unfold commitWorkerResponse
  cases hstate : response.session_state with
  | none =>
    rintro w' rfl
    refine .inl ⟨⟨fun _ _ => AgreeOn.refl _ _, .refl _⟩, fun hj => ?_⟩
    simpa [hstate] using hj.session_state
  | some state =>
    -- the outputs are published after the first journal and before the second
    have hfirst : Prog.Triple (fun w' => w' = w) (onFs (writeRecoveryJournal job .publishing_outputs))
        (fun _ w' => w'.parent = w.parent ∧ RootReady staging w'.fs ∧
          ∀ stage ∈ staging.stages, Keeps staging stage w.fs w'.fs)
        (fun _ w' => CommitFailed job staging response w w') := by
      refine (journal_spec h.staging_root _ h.root).consequence (fun _ h => h) ?_ ?_
      · rintro _ w' ⟨hsame, hready, hparent, -⟩
        exact ⟨hparent, hready, fun stage hs => hsame.keeps h.staging_root hs⟩
      · rintro e w' ⟨hsame, -, hparent, hfault⟩
        refine .inl ⟨⟨fun stage hs => (hsame.keeps h.staging_root hs).target, ?_⟩, ?_⟩
        · exact hparent ▸ .refl _
        · rintro ⟨⟨e', hfault'⟩, -, -⟩
          simp [hfault] at hfault'
    have hpublish : Prog.Triple
        (fun w' => w'.parent = w.parent ∧ RootReady staging w'.fs ∧
          ∀ stage ∈ staging.stages, Keeps staging stage w.fs w'.fs)
        (onFs (publishStagedOutputs job staging.stages))
        (fun published w' => w'.parent = w.parent ∧ AllPublished staging w.fs published w'.fs)
        (fun _ w' => CommitFailed job staging response w w') := by
      refine Prog.Triple.onState ?_
      rintro w' ⟨hparent, hready, hkeeps⟩
      refine (publishStagedOutputs_spec h.fresh).consequence (fun _ ht => ht ▸ ⟨hready, hkeeps⟩)
        (fun _ _ ht => ⟨hparent, ht⟩) ?_
      rintro _ t ⟨hagree, stage, hs, ⟨step, hfault, hpub⟩ | hpub⟩
      · refine .inl ⟨⟨hagree, hparent ▸ .refl _⟩, ?_⟩
        rintro ⟨⟨e', hfault'⟩, -, -⟩
        obtain rfl : step = .journal .committing_state e' := by simpa [hfault] using hfault'
        cases hpub
      · exact .inl ⟨⟨hagree, hparent ▸ .refl _⟩, fun hj => hpub (hj.publishable stage hs)⟩
    have hsecond : ∀ published, Prog.Triple
        (fun w' => w'.parent = w.parent ∧ AllPublished staging w.fs published w'.fs)
        (onFs (writeRecoveryJournal job .committing_state))
        (fun _ w' => w'.parent = w.parent ∧ AllPublished staging w.fs published w'.fs ∧
          ¬ JournalFails job staging response w)
        (fun _ w' => CommitFailed job staging response w w') := by
      rintro published w' ⟨hparent, hall⟩
      refine (journal_spec h.staging_root _ hall.ready).consequence (fun _ h => h) ?_ ?_ w' rfl
      · rintro _ w'' ⟨hsame, hready, hparent', hfault⟩
        refine ⟨hparent'.trans hparent, hall.sameButJournal h.staging_root hsame hready, ?_⟩
        rintro ⟨⟨e', hfault'⟩, -, -⟩
        exact hfault e' hfault'
      · -- nothing rolls back the outputs that are published here
        rintro e w'' ⟨hsame, hready, hparent', hfault⟩
        have hall' := hall.sameButJournal h.staging_root hsame hready
        exact .inr ⟨⟨⟨e, hfault⟩, by simp [hstate], fun stage hs => hall'.publishable hs⟩,
          hparent'.trans hparent, published, hall'⟩
    have hblock : ∀ published, Prog.Triple
        (fun w' => w'.parent = w.parent ∧ AllPublished staging w.fs published w'.fs ∧
          ¬ JournalFails job staging response w)
        ((commitBlock job (rewriteSession staging.stages state)).handle
          fun failure => recoverCommit job published failure.1 failure.2)
        (fun _ _ => ¬ JournalFails job staging response w)
        (fun _ w' => CommitFailed job staging response w w') := by
      rintro published w' ⟨hparent, hall, hnot⟩
      have hblock := commitBlock_spec h.staging_root (hparent ▸ h.designs) hall.rollbackable
        (rewriteSession staging.stages state)
      refine Prog.Triple.handle
        (hblock.consequence (fun _ h => h) (fun _ _ _ => hnot) fun _ _ h => h) ?_ w' rfl
      rintro ⟨e, previous_state⟩
      exact (recoverCommit_spec (hparent ▸ h.designs) e previous_state).consequence (fun _ h => h)
        (fun _ _ h => h.elim) fun _ _ hw => .inl ⟨hparent ▸ hw, hnot⟩
    exact Prog.Triple.bind hfirst fun _ => Prog.Triple.bind hpublish fun published =>
      Prog.Triple.bind (hsecond published) fun _ =>
        Prog.Triple.bind (hblock published) fun _ _ hw => hw

theorem not_unchanged_of_changed {published : List OutputStage} {w' : World}
    (hall : AllPublished staging w.fs published w'.fs)
    (hchanged : JournalFailsAfterPublication job staging response w) :
    ¬ Unchanged staging w.fs w.parent w' := by
  rintro ⟨hsame, -⟩
  obtain ⟨stage, hs, hstaged, s, hne⟩ := hchanged.changed
  have hmoved := hall.moved stage (hall.published_eq ▸ mem_filter.mpr ⟨hs, hstaged⟩)
  apply hne
  calc w.fs.node (stage.staged_path ++ s)
      = w'.fs.node (stage.target_path ++ s) := (hmoved.moved s).symm
    _ = w.fs.node (stage.target_path ++ s) :=
        hsame stage hs _ (Staging.append_mem_region hs hmoved.outside s)

theorem unchanged_of_not_changed {published : List OutputStage} {w' : World}
    (hall : AllPublished staging w.fs published w'.fs) (hparent : w'.parent = w.parent)
    (hfails : JournalFails job staging response w)
    (hnot : ¬ JournalFailsAfterPublication job staging response w) :
    Unchanged staging w.fs w.parent w' := by
  refine ⟨fun stage hs r hr => ?_, hparent ▸ .refl _⟩
  by_cases hmem : stage ∈ published
  · obtain ⟨⟨s, rfl⟩, -⟩ := hr
    have hstaged := (mem_filter.mp (hall.published_eq ▸ hmem)).2
    rw [(hall.moved stage hmem).moved s]
    by_contra hne
    exact hnot ⟨hfails, stage, hs, hstaged, s, hne⟩
  · exact hall.others stage hs hmem r hr

theorem not_allOrNothing_of_journalFails (h : CommitReady job staging w)
    (hfails : JournalFailsAfterPublication job staging response w) :
    ¬ AllOrNothing job staging response w := by
  intro hall
  have hspec := commitWorkerResponse_spec response h w rfl
  rcases hrun : commitWorkerResponse job staging.stages response w with ⟨e | a, w'⟩ <;>
    rw [hrun] at hspec
  · rcases hspec with ⟨-, hnot⟩ | ⟨-, -, published, hpublished⟩
    · exact hnot hfails.toJournalFails
    · exact not_unchanged_of_changed hpublished hfails (hall e w' hrun)
  · exact hspec hfails.toJournalFails

/-- **When a commit is all or nothing**: whatever the stages, the file system and the step that
raises, exactly when the journal written after publication is not the one that raises once a target
has changed. -/
theorem allOrNothing_iff (job : Job) (staging : Staging) (response : WorkerResponse) (w : World)
    (h : CommitReady job staging w) :
    AllOrNothing job staging response w ↔
      ¬ JournalFailsAfterPublication job staging response w := by
  refine ⟨fun hall hfails => not_allOrNothing_of_journalFails h hfails hall, fun hnot e w' hrun => ?_⟩
  rcases (commitWorkerResponse_spec response h).of_error rfl hrun with
    ⟨hsame, -⟩ | ⟨hfails, hparent, published, hall⟩
  · exact hsame
  · exact unchanged_of_not_changed hall hparent hfails hnot

/-- A file system with a new report staged and an old report at the target. -/
def reportFs : Fs where
  node
    | [] | ["job"] | ["job", "outputs"] | ["job", "outputs", "0"] | ["w"] => some .dir
    | ["job", "outputs", "0", "report"] => some (.file (.output "new"))
    | ["w", "report"] => some (.file (.output "old"))
    | _ => none
  parent_dir := by
    intro p a h
    have hp : p = (p ++ [a]).dropLast := by simp
    generalize p ++ [a] = q at h hp
    subst hp
    split at h <;> first | rfl | exact absurd rfl h

def reportStaging : Staging where
  root := ["job"]
  stages := [⟨"path", ["job", "outputs", "0", "report"], ["w", "report"], "report",
    ["job", "backups", "0"]⟩]
  targets := pairwise_singleton _ _
  backups := pairwise_singleton _ _
  layout := by
    intro stage hs
    obtain rfl := mem_singleton.mp hs
    exact ⟨"0", "report", rfl, rfl⟩
  private_root := by
    intro stage hs
    obtain rfl := mem_singleton.mp hs
    decide

/-- A job whose second recovery journal raises. -/
def reportJob : Job where
  staging_root := ["job"]
  job_id := "job_1"
  session_id := "s"
  tool_name := "export_report"
  event_sink := none
  py := ⟨fun _ => "", fun _ => ""⟩
  fault := some (.journal .committing_state .osError)

def reportWorld : World where
  fs := reportFs
  parent := freshParentState

theorem commitReady_reportWorld : CommitReady reportJob reportStaging reportWorld where
  staging_root := rfl
  root := ⟨rfl, .inl rfl, by
    intro name hname
    rcases mem_pair.mp hname with rfl | rfl <;> simp [reportWorld, reportFs, reportStaging]⟩
  fresh := by
    intro stage hs
    obtain rfl := mem_singleton.mp hs
    rfl
  designs := rfl

theorem allOrNothing_iff_reportWorld :
    AllOrNothing reportJob reportStaging ⟨some boardSession, .none⟩ reportWorld ↔
      ¬ JournalFailsAfterPublication reportJob reportStaging ⟨some boardSession, .none⟩ reportWorld :=
  allOrNothing_iff reportJob reportStaging ⟨some boardSession, .none⟩ reportWorld
    commitReady_reportWorld

/-- The second recovery journal raises and the new report stays published. -/
theorem not_allOrNothing_reportWorld :
    ¬ AllOrNothing reportJob reportStaging ⟨some boardSession, .none⟩ reportWorld := by
  refine not_allOrNothing_of_journalFails commitReady_reportWorld
    ⟨⟨⟨.osError, rfl⟩, rfl, fun stage hs hstaged => ?_⟩, _, mem_singleton_self _, rfl, [], ?_⟩
  · obtain rfl := mem_singleton.mp hs
    refine ⟨fun r hr => .inr ?_, by decide⟩
    exact reportFs.dir_of_prefix hr rfl
  · simp [reportWorld, reportFs]

end Commit

end ZapTrace
