import ZapTrace.Agent.Execution

/-!
# Publication and rollback

Publishing one stage changes the target of that stage, its two slots below the staging root and
the directories on the way to them, and nothing that matters to another stage. What a publication
has done to a stage is therefore known at every later step, and a rollback can undo it.

## Main results

* `ChangesOnly.keeps`: working on one stage keeps what the others rely on
* `publishLoop_spec`: what a publication leaves, when it returns and when it raises
* `rollbackPublishedOutputs_spec`: a rollback never raises and restores every target
-/

namespace ZapTrace

open FileTree Staging Prog List

variable {staging : Staging} {stage other : OutputStage} {t₀ t t' t'' : Fs}

/-! ## The paths of a staging -/

namespace Staging

theorem root_prefix_staged (h : stage ∈ staging.stages) : staging.root <+: stage.staged_path := by
  obtain ⟨slot, name, hstaged, -⟩ := staging.layout stage h
  exact hstaged ▸ prefix_append _ _

theorem root_prefix_backup (h : stage ∈ staging.stages) : staging.root <+: stage.backup_path := by
  obtain ⟨slot, name, -, hbackup⟩ := staging.layout stage h
  exact hbackup ▸ prefix_append _ _

theorem dropLast_backup (h : stage ∈ staging.stages) :
    stage.backup_path.dropLast = staging.root ++ ["backups"] := by
  obtain ⟨slot, name, -, hbackup⟩ := staging.layout stage h
  simp [hbackup]

theorem not_overlap_staged_backups (h : stage ∈ staging.stages) :
    ¬ Overlap stage.staged_path (staging.root ++ ["backups"]) := by
  obtain ⟨slot, name, hstaged, -⟩ := staging.layout stage h
  rw [hstaged, overlap_append_iff, overlap_cons_iff]
  simp

theorem not_overlap_staged_backup (h : stage ∈ staging.stages) (ho : other ∈ staging.stages) :
    ¬ Overlap stage.staged_path other.backup_path := by
  obtain ⟨slot, name, hstaged, -⟩ := staging.layout stage h
  obtain ⟨slot', name', -, hbackup⟩ := staging.layout other ho
  rw [hstaged, hbackup, overlap_append_iff, overlap_cons_iff]
  simp

theorem not_backup_prefix_backups (h : stage ∈ staging.stages) :
    ¬ stage.backup_path <+: staging.root ++ ["backups"] := by
  obtain ⟨slot, name, -, hbackup⟩ := staging.layout stage h
  rw [hbackup, prefix_append_right_inj]
  intro hp
  simpa using hp.length_le

theorem not_overlap_journal (h : stage ∈ staging.stages) {name : String}
    (hname : name ∈ ["recovery.json", "recovery.json.tmp"]) :
    ¬ Overlap stage.staged_path (staging.root ++ [name]) ∧
      ¬ Overlap stage.backup_path (staging.root ++ [name]) := by
  obtain ⟨slot, name', hstaged, hbackup⟩ := staging.layout stage h
  rw [hstaged, hbackup, overlap_append_iff, overlap_append_iff, overlap_cons_iff, overlap_cons_iff]
  rcases mem_pair.mp hname with rfl | rfl <;> simp

theorem not_overlap_targets (h : stage ∈ staging.stages) (ho : other ∈ staging.stages)
    (hne : stage ≠ other) : ¬ Overlap stage.target_path other.target_path := by
  have : Std.Symm fun a b : OutputStage => ¬ Overlap a.target_path b.target_path :=
    ⟨fun _ _ hab hba => hab (overlap_comm.mp hba)⟩
  exact staging.targets.forall h ho hne

theorem backup_ne (h : stage ∈ staging.stages) (ho : other ∈ staging.stages) (hne : stage ≠ other) :
    stage.backup_path ≠ other.backup_path := by
  have : Std.Symm fun a b : OutputStage => a.backup_path ≠ b.backup_path :=
    ⟨fun _ _ hab => hab.symm⟩
  exact staging.backups.forall h ho hne

theorem not_overlap_backups (h : stage ∈ staging.stages) (ho : other ∈ staging.stages)
    (hne : stage ≠ other) : ¬ Overlap stage.backup_path other.backup_path := by
  have hbackup := backup_ne h ho hne
  obtain ⟨slot, name, -, hb⟩ := staging.layout stage h
  obtain ⟨slot', name', -, hb'⟩ := staging.layout other ho
  rw [hb, hb'] at hbackup ⊢
  rw [overlap_append_iff, overlap_cons_iff, overlap_cons_iff]
  rintro ⟨-, rfl, -⟩
  exact hbackup rfl

theorem not_overlap_staged (h : stage ∈ staging.stages) (ho : other ∈ staging.stages)
    (hne : stage ≠ other) : ¬ Overlap stage.staged_path other.staged_path := by
  have hbackup := backup_ne h ho hne
  obtain ⟨slot, name, hs, hb⟩ := staging.layout stage h
  obtain ⟨slot', name', hs', hb'⟩ := staging.layout other ho
  rw [hb, hb'] at hbackup
  rw [hs, hs', overlap_append_iff, overlap_cons_iff, overlap_cons_iff]
  rintro ⟨-, rfl, -⟩
  exact hbackup rfl

theorem nodup (staging : Staging) : staging.stages.Nodup :=
  staging.backups.imp fun hne heq => hne (congrArg OutputStage.backup_path heq)

/-- The paths a target stands for: it and what lies below it, the staging area apart. -/
def region (staging : Staging) (stage : OutputStage) : Set Path :=
  {r | stage.target_path <+: r ∧ ¬ staging.root <+: r}

theorem not_overlap_target (h : stage ∈ staging.stages)
    (hout : ¬ stage.target_path <+: staging.root) {r : Path} (hr : staging.root <+: r) :
    ¬ stage.target_path <+: r := by
  intro hp
  rcases overlap_of_below hp hr with h' | h'
  · exact hout h'
  · exact staging.private_root stage h h'

theorem not_root_prefix (h : stage ∈ staging.stages) {r p : Path} (hr : r <+: stage.target_path)
    (hp : staging.root <+: p) : ¬ p <+: r :=
  fun hpr => staging.private_root stage h ((hp.trans hpr).trans hr)

theorem append_mem_region (h : stage ∈ staging.stages) (hout : ¬ stage.target_path <+: staging.root)
    (s : Path) : stage.target_path ++ s ∈ staging.region stage :=
  ⟨prefix_append _ _, fun hr => not_overlap_target h hout hr (prefix_append _ _)⟩

end Staging

/-! ## What working on a stage changes -/

/-- What working on one stage can change: its target, when it does not contain the staging root,
its two slots, and directories created on the way to them. -/
def ChangesOnly (staging : Staging) (stage : OutputStage) (t t' : Fs) : Prop :=
  ∀ r, (stage.target_path <+: r → stage.target_path <+: staging.root) →
    ¬ stage.staged_path <+: r → ¬ stage.backup_path <+: r →
      t'.node r = t.node r ∨
        t.node r = none ∧ t'.node r = some .dir ∧
          (r <+: stage.target_path ∨ r <+: staging.root ++ ["backups"])

/-- What publication, rollback and the recovery journal rely on of the staging root: it is a
directory, backups can be put in it, and no directory stands where the journal is written. -/
structure RootReady (staging : Staging) (t : Fs) : Prop where
  root : t.node staging.root = some .dir
  backups : t.node (staging.root ++ ["backups"]) = none ∨
    t.node (staging.root ++ ["backups"]) = some .dir
  journal : ∀ name ∈ ["recovery.json", "recovery.json.tmp"],
    t.node (staging.root ++ [name]) ≠ some .dir

/-- What a stage relies on is kept: what its target stands for, its slots, and the directories
its target lies in. -/
structure Keeps (staging : Staging) (stage : OutputStage) (t t' : Fs) : Prop where
  target : AgreeOn (staging.region stage) t t'
  staged : ∀ r, stage.staged_path <+: r → t'.node r = t.node r
  backup : ∀ r, stage.backup_path <+: r → t'.node r = t.node r
  parent : ∀ r, r <+: stage.target_path.dropLast →
    t'.node r = t.node r ∨ t.node r = none ∧ t'.node r = some .dir

namespace ChangesOnly

theorem refl (staging : Staging) (stage : OutputStage) (t : Fs) : ChangesOnly staging stage t t :=
  fun _ _ _ _ => .inl rfl

theorem trans (h : ChangesOnly staging stage t t') (h' : ChangesOnly staging stage t' t'') :
    ChangesOnly staging stage t t'' := by
  intro r ht hs hb
  rcases h r ht hs hb with h₁ | ⟨h₁, h₂, hr⟩ <;> rcases h' r ht hs hb with h₃ | ⟨h₃, h₄, hr'⟩
  · exact .inl (h₃.trans h₁)
  · exact .inr ⟨h₁ ▸ h₃, h₄, hr'⟩
  · exact .inr ⟨h₁, h₃.trans h₂, hr⟩
  · rw [h₂] at h₃
    cases h₃

theorem node_eq (h : ChangesOnly staging stage t t') {r : Path}
    (ht : stage.target_path <+: r → stage.target_path <+: staging.root)
    (hs : ¬ stage.staged_path <+: r) (hb : ¬ stage.backup_path <+: r)
    (hr : r <+: stage.target_path → t.node r ≠ none)
    (hr' : r <+: staging.root ++ ["backups"] → t.node r ≠ none) : t'.node r = t.node r := by
  rcases h r ht hs hb with h | ⟨hnone, -, hp | hp⟩
  · exact h
  · exact absurd hnone (hr hp)
  · exact absurd hnone (hr' hp)

theorem rootReady (h : ChangesOnly staging stage t t') (hs : stage ∈ staging.stages)
    (hr : RootReady staging t) : RootReady staging t' where
  root := by
    have hne : ¬ t.node staging.root = none := by simp [hr.root]
    have hstaged : ¬ stage.staged_path <+: staging.root := fun hp =>
      not_overlap_staged_backups hs (.inl (hp.trans (prefix_append _ _)))
    have hbackup : ¬ stage.backup_path <+: staging.root := fun hp =>
      not_backup_prefix_backups hs (hp.trans (prefix_append _ _))
    rw [h.node_eq (fun hp => hp) hstaged hbackup (fun _ => hne) (fun _ => hne), hr.root]
  backups := by
    have hstaged : ¬ stage.staged_path <+: staging.root ++ ["backups"] := fun hp =>
      not_overlap_staged_backups hs (.inl hp)
    have htarget : stage.target_path <+: staging.root ++ ["backups"] →
        stage.target_path <+: staging.root := by
      intro hp
      by_contra hout
      exact not_overlap_target hs hout (prefix_append _ _) hp
    rcases h _ htarget hstaged (not_backup_prefix_backups hs) with h' | ⟨-, h', -⟩
    · rw [h']
      exact hr.backups
    · exact .inr h'
  journal := by
    intro name hname
    have htarget : stage.target_path <+: staging.root ++ [name] →
        stage.target_path <+: staging.root := by
      intro hp
      by_contra hout
      exact not_overlap_target hs hout (prefix_append _ _) hp
    have hslots := not_overlap_journal hs hname
    rcases h _ htarget (fun hp => hslots.1 (.inl hp)) fun hp => hslots.2 (.inl hp) with
      h' | ⟨-, -, hp | hp⟩
    · rw [h']
      exact hr.journal name hname
    · exact absurd hp (Staging.not_root_prefix hs (prefix_refl _) (prefix_append _ _))
    · rcases mem_pair.mp hname with rfl | rfl <;>
        simp [prefix_append_right_inj] at hp

/-- **Working on one stage keeps what every other stage relies on.** -/
theorem keeps (h : ChangesOnly staging stage t t') (hs : stage ∈ staging.stages)
    (ho : other ∈ staging.stages) (hne : stage ≠ other) (hr : RootReady staging t) :
    Keeps staging other t t' where
  target := by
    rintro r ⟨htarget, hroot⟩
    have hdisjoint := not_overlap_targets hs ho hne
    refine h.node_eq (fun hp => absurd (overlap_of_below hp htarget) hdisjoint)
      (fun hp => hroot ((root_prefix_staged hs).trans hp))
      (fun hp => hroot ((root_prefix_backup hs).trans hp))
      (fun hp => absurd (.inr (htarget.trans hp)) hdisjoint) fun hp => ?_
    -- a path above the directory of the backups that does not lie below the root lies above it
    have habove : r <+: staging.root := by
      rcases prefix_concat_iff.mp hp with rfl | hp
      · exact absurd (prefix_append _ _) hroot
      · exact hp
    simp [t.dir_of_prefix habove hr.root]
  staged := by
    intro r hstaged
    have hroot : staging.root <+: r := (root_prefix_staged ho).trans hstaged
    refine h.node_eq (fun hp => ?_)
      (fun hp => not_overlap_staged hs ho hne (overlap_of_below hp hstaged))
      (fun hp => not_overlap_staged_backup ho hs (overlap_of_below hstaged hp))
      (fun hp => absurd hp (fun hp => staging.private_root stage hs (hroot.trans hp)))
      fun hp => absurd (.inl (hstaged.trans hp)) (not_overlap_staged_backups ho)
    by_contra hout
    exact not_overlap_target hs hout hroot hp
  backup := by
    intro r hbackup
    have hroot : staging.root <+: r := (root_prefix_backup ho).trans hbackup
    refine h.node_eq (fun hp => ?_)
      (fun hp => not_overlap_staged_backup hs ho (overlap_of_below hp hbackup))
      (fun hp => not_overlap_backups hs ho hne (overlap_of_below hp hbackup))
      (fun hp => absurd hp (fun hp => staging.private_root stage hs (hroot.trans hp)))
      fun hp => absurd (hbackup.trans hp) (not_backup_prefix_backups ho)
    by_contra hout
    exact not_overlap_target hs hout hroot hp
  parent := by
    intro r hparent
    have htarget : r <+: other.target_path := hparent.trans (List.dropLast_prefix _)
    rcases h r (fun hp => absurd (.inl (hp.trans htarget)) (not_overlap_targets hs ho hne))
      (Staging.not_root_prefix ho htarget (root_prefix_staged hs))
      (Staging.not_root_prefix ho htarget (root_prefix_backup hs)) with h | ⟨h, h', -⟩
    · exact .inl h
    · exact .inr ⟨h, h'⟩

end ChangesOnly

/-! ## A stage before, during and after its publication -/

/-- A stage whose target must be rolled back: what its target stood for is kept in the backup, or
it was absent and there is no backup. -/
structure Touched (staging : Staging) (t₀ t : Fs) (stage : OutputStage) : Prop where
  outside : ¬ stage.target_path <+: staging.root
  parent : ∀ r, r <+: stage.target_path.dropLast → t.node r = some .dir
  saved : t₀.node stage.target_path = none ∧ t.node stage.backup_path = none ∨
    t₀.node stage.target_path ≠ none ∧
      ∀ s, t.node (stage.backup_path ++ s) = t₀.node (stage.target_path ++ s)

/-- A touched stage whose target is free, the staged output still being in place. -/
structure Vacated (staging : Staging) (t₀ t : Fs) (stage : OutputStage) : Prop
    extends Touched staging t₀ t stage where
  absent : t.node stage.target_path = none
  staged : ∀ r, stage.staged_path <+: r → t.node r = t₀.node r

/-- When the file system lets a stage be published: either nothing was staged, or directories can
be created up to the target and the target does not contain the staging root. -/
def Publishable (staging : Staging) (t₀ : Fs) (stage : OutputStage) : Prop :=
  t₀.pathExists stage.staged_path = true →
    (∀ r, r <+: stage.target_path.dropLast → t₀.node r = none ∨ t₀.node r = some .dir) ∧
      ¬ stage.target_path <+: staging.root

/-- A published stage: its target holds what was staged. -/
structure Published (staging : Staging) (t₀ t : Fs) (stage : OutputStage) : Prop
    extends Touched staging t₀ t stage where
  publishable : Publishable staging t₀ stage
  moved : ∀ s, t.node (stage.target_path ++ s) = t₀.node (stage.staged_path ++ s)

namespace Keeps

theorem trans (h : Keeps staging stage t t') (h' : Keeps staging stage t' t'') :
    Keeps staging stage t t'' where
  target := h.target.trans h'.target
  staged r hr := (h'.staged r hr).trans (h.staged r hr)
  backup r hr := (h'.backup r hr).trans (h.backup r hr)
  parent := by
    intro r hr
    rcases h.parent r hr with h₁ | ⟨h₁, h₂⟩ <;> rcases h'.parent r hr with h₃ | ⟨h₃, h₄⟩
    · exact .inl (h₃.trans h₁)
    · exact .inr ⟨h₁ ▸ h₃, h₄⟩
    · exact .inr ⟨h₁, h₃.trans h₂⟩
    · rw [h₂] at h₃
      cases h₃

theorem touched (k : Keeps staging stage t t') (h : Touched staging t₀ t stage) :
    Touched staging t₀ t' stage where
  outside := h.outside
  parent := by
    intro r hr
    rcases k.parent r hr with h' | ⟨-, h'⟩
    · exact h'.trans (h.parent r hr)
    · exact h'
  saved := by
    rcases h.saved with ⟨habsent, hbackup⟩ | ⟨hpresent, hbackup⟩
    · exact .inl ⟨habsent, by rw [k.backup _ (prefix_refl _), hbackup]⟩
    · exact .inr ⟨hpresent, fun s => by rw [k.backup _ (prefix_append _ s), hbackup s]⟩

theorem published (k : Keeps staging stage t t') (hs : stage ∈ staging.stages)
    (h : Published staging t₀ t stage) : Published staging t₀ t' stage where
  toTouched := k.touched h.toTouched
  publishable := h.publishable
  moved s := by rw [k.target _ (append_mem_region hs h.outside s), h.moved s]

end Keeps

/-! ## The calls of a publication -/

theorem prefix_root_of_dropLast {p q r : Path} (hp : p <+: r) (hr : r <+: p.dropLast) :
    r <+: q := by
  have hlength := (hp.trans hr).length_le
  rw [length_dropLast] at hlength
  have hp' : p = [] := length_eq_zero_iff.mp (by omega)
  rw [hp'] at hr
  exact (prefix_nil.mp hr) ▸ nil_prefix

theorem makeDirs_parent (hs : stage ∈ staging.stages) (hr : RootReady staging t)
    (h : t.makeDirs stage.target_path.dropLast = .ok t') :
    ChangesOnly staging stage t t' ∧ Keeps staging stage t t' ∧
      ∀ r, r <+: stage.target_path.dropLast → t'.node r = some .dir := by
  have habove : ∀ {r}, r <+: stage.target_path.dropLast → r <+: stage.target_path :=
    fun hp => hp.trans (List.dropLast_prefix _)
  refine ⟨fun r _ _ _ => ?_, ⟨agreeOn_makeDirs h fun r hregion hp => ?_, ?_, ?_, ?_⟩, ?_⟩
  · rcases makeDirs_node h r with h' | ⟨hp, hnone, hdir⟩
    · exact .inl h'
    · exact .inr ⟨hnone, hdir, .inl (habove hp)⟩
  · exact t.dir_of_prefix (prefix_root_of_dropLast hregion.1 hp) hr.root
  · intro r hstaged
    rw [(makeDirs_eq_ok h).2, if_neg]
    exact fun hp => not_root_prefix hs (habove hp) (root_prefix_staged hs) hstaged
  · intro r hbackup
    rw [(makeDirs_eq_ok h).2, if_neg]
    exact fun hp => not_root_prefix hs (habove hp) (root_prefix_backup hs) hbackup
  · intro r hp
    rcases makeDirs_node h r with h' | ⟨-, hnone, hdir⟩
    · exact .inl h'
    · exact .inr ⟨hnone, hdir⟩
  · intro r hp
    rw [(makeDirs_eq_ok h).2, if_pos hp]

theorem makeDirs_backups (hs : stage ∈ staging.stages) (hr : RootReady staging t) :
    ∃ t', t.makeDirs stage.backup_path.dropLast = .ok t' ∧ ChangesOnly staging stage t t' ∧
      Keeps staging stage t t' ∧ t'.node (staging.root ++ ["backups"]) = some .dir := by
  rw [dropLast_backup hs]
  obtain ⟨t', h⟩ : ∃ t', t.makeDirs (staging.root ++ ["backups"]) = .ok t' := by
    refine exists_makeDirs fun r hp => ?_
    rcases prefix_concat_iff.mp hp with rfl | hp
    · exact hr.backups
    · exact .inr (t.dir_of_prefix hp hr.root)
  refine ⟨t', h, fun r _ _ _ => ?_, ⟨agreeOn_makeDirs h fun r hregion hp => ?_, ?_, ?_, ?_⟩, ?_⟩
  · rcases makeDirs_node h r with h' | ⟨hp, hnone, hdir⟩
    · exact .inl h'
    · exact .inr ⟨hnone, hdir, .inr hp⟩
  · rcases prefix_concat_iff.mp hp with rfl | hp
    · exact absurd (prefix_append _ _) hregion.2
    · exact t.dir_of_prefix hp hr.root
  · intro r hstaged
    rw [(makeDirs_eq_ok h).2, if_neg]
    exact fun hp => not_overlap_staged_backups hs (.inl (hstaged.trans hp))
  · intro r hbackup
    rw [(makeDirs_eq_ok h).2, if_neg]
    exact fun hp => not_backup_prefix_backups hs (hbackup.trans hp)
  · intro r hp
    rcases makeDirs_node h r with h' | ⟨-, hnone, hdir⟩
    · exact .inl h'
    · exact .inr ⟨hnone, hdir⟩
  · rw [(makeDirs_eq_ok h).2, if_pos (prefix_refl _)]

theorem changesOnly_rename {src dst : Path} (hne : src ≠ dst) (h : t.rename src dst = .ok t')
    (hout : ¬ stage.target_path <+: staging.root)
    (hsrc : src = stage.target_path ∨ src = stage.staged_path ∨ src = stage.backup_path)
    (hdst : dst = stage.target_path ∨ dst = stage.backup_path) :
    ChangesOnly staging stage t t' := by
  intro r ht hs hb
  have ht' : ¬ stage.target_path <+: r := fun hp => hout (ht hp)
  refine .inl ?_
  rw [(rename_eq_ok hne h).2.2.2, if_neg, if_neg]
  · rcases hsrc with rfl | rfl | rfl <;> assumption
  · rcases hdst with rfl | rfl <;> assumption

theorem target_ne_backup (hs : stage ∈ staging.stages) : stage.target_path ≠ stage.backup_path :=
  fun h => staging.private_root stage hs (h ▸ root_prefix_backup hs)

theorem staged_ne_target (hs : stage ∈ staging.stages) : stage.staged_path ≠ stage.target_path :=
  fun h => staging.private_root stage hs (h ▸ root_prefix_staged hs)

theorem Keeps.vacated_of_absent (k : Keeps staging stage t₀ t) (hs : stage ∈ staging.stages)
    (hr : RootReady staging t) (hfresh : t₀.node stage.backup_path = none)
    (hdirs : ∀ r, r <+: stage.target_path.dropLast → t.node r = some .dir)
    (habsent : t.node stage.target_path = none) : Vacated staging t₀ t stage := by
  have hout : ¬ stage.target_path <+: staging.root := by
    intro hp
    simp [t.dir_of_prefix hp hr.root] at habsent
  have htarget : t.node stage.target_path = t₀.node stage.target_path := by
    simpa using k.target _ (append_mem_region hs hout [])
  refine ⟨⟨hout, hdirs, .inl ⟨htarget ▸ habsent, ?_⟩⟩, habsent, k.staged⟩
  rw [k.backup _ (prefix_refl _), hfresh]

theorem Keeps.rename_target (k : Keeps staging stage t₀ t) (hs : stage ∈ staging.stages)
    (hfresh : t₀.node stage.backup_path = none)
    (hdirs : ∀ r, r <+: stage.target_path.dropLast → t.node r = some .dir)
    (hbackups : t.node (staging.root ++ ["backups"]) = some .dir)
    (hpresent : t.node stage.target_path ≠ none) (hout : ¬ stage.target_path <+: staging.root) :
    ∃ t', t.rename stage.target_path stage.backup_path = .ok t' ∧
      ChangesOnly staging stage t t' ∧ Vacated staging t₀ t' stage := by
  have hne := target_ne_backup hs
  have hbackup : t.node stage.backup_path = none := by
    rw [k.backup _ (prefix_refl _), hfresh]
  have hslots : ∀ {r}, staging.root <+: r → ¬ stage.target_path <+: r :=
    not_overlap_target hs hout
  obtain ⟨t', h⟩ := exists_rename hpresent (dropLast_backup hs ▸ hbackups)
    (hslots (root_prefix_backup hs)) hbackup
  have hnode := (rename_eq_ok hne h).2.2.2
  have htarget : t₀.node stage.target_path = t.node stage.target_path := by
    simpa using (k.target _ (append_mem_region hs hout [])).symm
  refine ⟨t', h, changesOnly_rename hne h hout (.inl rfl) (.inr rfl), ⟨hout, ?_, .inr ⟨?_, ?_⟩⟩,
    ?_, ?_⟩
  · intro r hp
    have hp' := hp.trans (List.dropLast_prefix _)
    rw [hnode, if_neg (Staging.not_root_prefix hs hp' (root_prefix_backup hs)), if_neg,
      hdirs r hp]
    -- the target is not above the directory it lies in unless it is the root of the tree
    exact fun hr => hout (hr.trans (prefix_root_of_dropLast hr hp))
  · exact htarget ▸ hpresent
  · intro s
    rw [rename_node_append hne h, k.target _ (append_mem_region hs hout s)]
  · rw [hnode, if_neg (Staging.not_root_prefix hs (prefix_refl _)
      (root_prefix_backup hs)), if_pos (prefix_refl _)]
  · intro r hr
    have hroot := (root_prefix_staged hs).trans hr
    rw [hnode, if_neg (fun hb => not_overlap_staged_backup hs hs (overlap_of_below hr hb)),
      if_neg (hslots hroot), k.staged r hr]

theorem Vacated.rename_staged (h : Vacated staging t₀ t stage) (hs : stage ∈ staging.stages)
    (hpub : Publishable staging t₀ stage) (hstaged : t₀.pathExists stage.staged_path = true) :
    ∃ t', t.rename stage.staged_path stage.target_path = .ok t' ∧
      ChangesOnly staging stage t t' ∧ Published staging t₀ t' stage := by
  have hne := staged_ne_target hs
  have hsrc : t.node stage.staged_path ≠ none := by
    rw [h.staged _ (prefix_refl _)]
    exact node_ne_none_of_pathExists hstaged
  obtain ⟨t', hren⟩ := exists_rename hsrc (h.parent _ (prefix_refl _))
    (Staging.not_root_prefix hs (prefix_refl _) (root_prefix_staged hs)) h.absent
  have hnode := (rename_eq_ok hne hren).2.2.2
  -- the backup lies neither below the target nor below the staged output
  have hbackup : ∀ s, t'.node (stage.backup_path ++ s) = t.node (stage.backup_path ++ s) := by
    intro s
    have hroot := (root_prefix_backup hs).trans (prefix_append stage.backup_path s)
    rw [hnode, if_neg (not_overlap_target hs h.outside hroot), if_neg]
    exact fun hp => not_overlap_staged_backup hs hs
      (overlap_of_below hp (prefix_append _ s))
  refine ⟨t', hren, changesOnly_rename hne hren h.outside (.inr (.inl rfl)) (.inl rfl),
    ⟨h.outside, ?_, ?_⟩, hpub, ?_⟩
  · intro r hp
    have hp' := hp.trans (List.dropLast_prefix _)
    rw [hnode, if_neg, if_neg (Staging.not_root_prefix hs hp' (root_prefix_staged hs)),
      h.parent r hp]
    exact fun hr => h.outside (hr.trans (prefix_root_of_dropLast hr hp))
  · have hself : t'.node stage.backup_path = t.node stage.backup_path := by
      simpa using hbackup []
    simpa only [hbackup, hself] using h.saved
  · intro s
    rw [rename_node_append hne hren, h.staged _ (prefix_append _ s)]

/-! ## Publishing -/

section Publish

variable {job : Job} {s : PublishState}
variable {op : Fs → Except Errno Fs}

theorem osCall_of_ok (h : op t = .ok t') : osCall op t = (.ok (), t') := by
  simp [osCall, attempt, h, Except.mapError]

theorem osCall_of_error {e : Errno} (h : op t = .error e) : osCall op t = (.error .osError, t) := by
  simp [osCall, attempt, h, Except.mapError]
variable {step : Step}

theorem osStep_of_ok (h : op s.fs = .ok t) (hfault : job.fault ≠ some step) :
    osStep job step op s = (.ok (), { s with fs := t }) := by
  rw [osStep, if_neg hfault, onState_apply, osCall_of_ok h]

theorem osStep_of_error {e : Errno} (h : op s.fs = .error e) : osStep job step op s = (.error .osError, s) := by
  unfold osStep
  split
  · rfl
  · rw [onState_apply, osCall_of_error h]

theorem osStep_of_fault (h : job.fault = some step) : osStep job step op s = (.error .osError, s) := by
  rw [osStep, if_pos h]
  rfl

theorem osStep_triple {P : PublishState → Prop} {Q : Unit → PublishState → Prop} {E : PyError → PublishState → Prop}
    (hok : ∀ s t, P s → op s.fs = .ok t → Q () { s with fs := t })
    (herror : ∀ s, P s → (job.fault = some step ∨ ∃ e, op s.fs = .error e) → E .osError s) :
    Prog.Triple P (osStep job step op) Q E := by
  intro s hs
  by_cases hfault : job.fault = some step
  · rw [osStep_of_fault hfault]
    exact herror s hs (.inl hfault)
  · cases hop : op s.fs with
    | ok t =>
      rw [osStep_of_ok hop hfault]
      exact hok s t hs hop
    | error e =>
      rw [osStep_of_error hop]
      exact herror s hs (.inr ⟨e, hop⟩)

/-- Why a stage may fail to be published: a publication step raises, or the file system refuses. -/
def MayFail (staging : Staging) (t₀ : Fs) (job : Job) (stage : OutputStage) : Prop :=
  (∃ step, job.fault = some step ∧ step.publishes = true) ∨ ¬ Publishable staging t₀ stage

/-- How the publication of a stage returns: the stage is published, or nothing was staged. -/
def PublishedFrom (staging : Staging) (t₀ : Fs) (stage : OutputStage) (s s' : PublishState) : Prop :=
  ChangesOnly staging stage s.fs s'.fs ∧
    if t₀.pathExists stage.staged_path then
      s'.touched = s.touched ++ [stage] ∧ Published staging t₀ s'.fs stage
    else s' = s

/-- How the publication of a stage raises: its target is as it was, or can be rolled back. -/
def FailedFrom (staging : Staging) (t₀ : Fs) (job : Job) (stage : OutputStage)
    (s : PublishState) (e : PyError) (s' : PublishState) : Prop :=
  e = .osError ∧ ChangesOnly staging stage s.fs s'.fs ∧ MayFail staging t₀ job stage ∧
    (s'.touched = s.touched ∧ AgreeOn (staging.region stage) t₀ s'.fs ∨
      s'.touched = s.touched ++ [stage] ∧ Touched staging t₀ s'.fs stage)

/-- A stage with a staged output, when the directories its target lies in are there. -/
structure Approached (staging : Staging) (t₀ : Fs) (stage : OutputStage) (s s' : PublishState) :
    Prop where
  touched : s'.touched = s.touched
  changes : ChangesOnly staging stage s.fs s'.fs
  keeps : Keeps staging stage t₀ s'.fs
  ready : RootReady staging s'.fs
  dirs : ∀ r, r <+: stage.target_path.dropLast → s'.fs.node r = some .dir
  clear : ∀ r, r <+: stage.target_path.dropLast → t₀.node r = none ∨ t₀.node r = some .dir
  staged : t₀.pathExists stage.staged_path = true

namespace Approached

variable {s s' : PublishState}

theorem publishable (h : Approached staging t₀ stage s s')
    (hout : ¬ stage.target_path <+: staging.root) : Publishable staging t₀ stage :=
  fun _ => ⟨h.clear, hout⟩

theorem failed (h : Approached staging t₀ stage s s') (hfail : MayFail staging t₀ job stage) :
    FailedFrom staging t₀ job stage s .osError s' :=
  ⟨rfl, h.changes, hfail, .inl ⟨h.touched, h.keeps.target⟩⟩

end Approached

variable {i : ℕ}

theorem makeTargetDir_spec (hs : stage ∈ staging.stages) (hr : RootReady staging s.fs)
    (hk : Keeps staging stage t₀ s.fs) (hstaged : t₀.pathExists stage.staged_path = true) :
    Prog.Triple (fun s' => s' = s)
      (osStep job (.makeTargetDir i) (·.makeDirs stage.target_path.dropLast))
      (fun _ s' => Approached staging t₀ stage s s') (FailedFrom staging t₀ job stage s) := by
  refine osStep_triple ?_ ?_
  · rintro _ t rfl hmake
    obtain ⟨hchanges, hkeeps, hdirs⟩ := makeDirs_parent hs hr hmake
    refine ⟨rfl, hchanges, hk.trans hkeeps, hchanges.rootReady hs hr, hdirs, fun r hp => ?_,
      hstaged⟩
    rcases hk.parent r hp with h | ⟨h, -⟩
    · exact h ▸ (makeDirs_eq_ok hmake).1 r hp
    · exact .inl h
  · rintro _ rfl hwhy
    refine ⟨rfl, .refl _ _ _, ?_, .inl ⟨rfl, hk.target⟩⟩
    rcases hwhy with hfault | ⟨e, hrefused⟩
    · exact .inl ⟨_, hfault, rfl⟩
    · refine .inr fun hpub => ?_
      obtain ⟨t, ht⟩ := exists_makeDirs fun r hp => by
        rcases hk.parent r hp with h | ⟨-, h⟩
        · exact h ▸ (hpub hstaged).1 r hp
        · exact .inr h
      rw [ht] at hrefused
      cases hrefused

theorem touch_spec (hstaged : t₀.pathExists stage.staged_path = true) {s' : PublishState}
    (htouched : s'.touched = s.touched) (hchanges : ChangesOnly staging stage s.fs s'.fs)
    (hpublished : Published staging t₀ s'.fs stage) :
    PublishedFrom staging t₀ stage s { s' with touched := s'.touched ++ [stage] } :=
  ⟨hchanges, by simpa [hstaged, htouched] using hpublished⟩

theorem publishAbsent_spec (hs : stage ∈ staging.stages)
    (hfresh : t₀.node stage.backup_path = none) :
    Prog.Triple
      (fun s' => Approached staging t₀ stage s s' ∧ s'.fs.node stage.target_path = none)
      (do
        osStep job (.replaceStaged i) (·.rename stage.staged_path stage.target_path)
        touch stage)
      (fun _ => PublishedFrom staging t₀ stage s) (FailedFrom staging t₀ job stage s) := by
  refine Prog.Triple.bind (Q := fun _ s' => s'.touched = s.touched ∧
    ChangesOnly staging stage s.fs s'.fs ∧ Published staging t₀ s'.fs stage ∧
      t₀.pathExists stage.staged_path = true) (osStep_triple ?_ ?_) fun _ s' h =>
    touch_spec h.2.2.2 h.1 h.2.1 h.2.2.1
  · rintro s' t ⟨h, habsent⟩ hren
    have hv := h.keeps.vacated_of_absent hs h.ready hfresh h.dirs habsent
    obtain ⟨t', ht', hchanges, hpublished⟩ :=
      hv.rename_staged hs (h.publishable hv.outside) h.staged
    obtain rfl : t' = t := Except.ok.inj (ht'.symm.trans hren)
    exact ⟨h.touched, h.changes.trans hchanges, hpublished, h.staged⟩
  · rintro s' ⟨h, habsent⟩ (hfault | ⟨e, hrefused⟩)
    · exact h.failed (.inl ⟨_, hfault, rfl⟩)
    · have hv := h.keeps.vacated_of_absent hs h.ready hfresh h.dirs habsent
      obtain ⟨t', ht', -⟩ := hv.rename_staged hs (h.publishable hv.outside) h.staged
      rw [ht'] at hrefused
      cases hrefused

theorem replaceTarget_spec (hs : stage ∈ staging.stages)
    (hfresh : t₀.node stage.backup_path = none) :
    Prog.Triple
      (fun s' => Approached staging t₀ stage s s' ∧ s'.fs.node stage.target_path ≠ none ∧
        s'.fs.node (staging.root ++ ["backups"]) = some .dir)
      (osStep job (.replaceTarget i) (·.rename stage.target_path stage.backup_path))
      (fun _ s' => s'.touched = s.touched ∧ ChangesOnly staging stage s.fs s'.fs ∧
        Vacated staging t₀ s'.fs stage ∧ Publishable staging t₀ stage)
      (FailedFrom staging t₀ job stage s) := by
  refine osStep_triple ?_ ?_
  · rintro s' t ⟨h, hpresent, hbackups⟩ hren
    have hout : ¬ stage.target_path <+: staging.root := fun hp =>
      not_rename_into_self (target_ne_backup hs) (hp.trans (root_prefix_backup hs)) hren
    obtain ⟨t', ht', hchanges, hv⟩ :=
      h.keeps.rename_target hs hfresh h.dirs hbackups hpresent hout
    obtain rfl : t' = t := Except.ok.inj (ht'.symm.trans hren)
    exact ⟨h.touched, h.changes.trans hchanges, hv, h.publishable hout⟩
  · rintro s' ⟨h, hpresent, hbackups⟩ (hfault | ⟨e, hrefused⟩)
    · exact h.failed (.inl ⟨_, hfault, rfl⟩)
    · refine h.failed (.inr fun hpub => ?_)
      obtain ⟨t', ht', -⟩ :=
        h.keeps.rename_target hs hfresh h.dirs hbackups hpresent (hpub h.staged).2
      rw [ht'] at hrefused
      cases hrefused

/-- The last calls when the target is present: it is moved to its backup and the stage recorded,
and then the staged output is moved. -/
theorem publishPresent_spec (hs : stage ∈ staging.stages)
    (hfresh : t₀.node stage.backup_path = none)
    (hstaged : t₀.pathExists stage.staged_path = true) :
    Prog.Triple
      (fun s' => Approached staging t₀ stage s s' ∧ s'.fs.node stage.target_path ≠ none)
      (do
        osStep job (.makeBackupDir i) (·.makeDirs stage.backup_path.dropLast)
        osStep job (.replaceTarget i) (·.rename stage.target_path stage.backup_path)
        touch stage
        osStep job (.replaceStaged i) (·.rename stage.staged_path stage.target_path))
      (fun _ => PublishedFrom staging t₀ stage s) (FailedFrom staging t₀ job stage s) := by
  refine Prog.Triple.bind (osStep_triple ?_ ?_) fun _ =>
    Prog.Triple.bind (replaceTarget_spec hs hfresh) fun _ =>
    Prog.Triple.bind (Q := fun _ s' => s'.touched = s.touched ++ [stage] ∧
      ChangesOnly staging stage s.fs s'.fs ∧ Vacated staging t₀ s'.fs stage ∧
        Publishable staging t₀ stage) ?_ fun _ => osStep_triple ?_ ?_
  · rintro s' t ⟨h, hpresent⟩ hmake
    obtain ⟨t', ht', hchanges, hkeeps, hbackups⟩ := makeDirs_backups hs h.ready
    obtain rfl : t' = t := Except.ok.inj (ht'.symm.trans hmake)
    have hkeep : ∀ {r}, s'.fs.node r = some .dir → t'.node r = some .dir := dir_of_makeDirs hmake
    refine ⟨⟨h.touched, h.changes.trans hchanges, h.keeps.trans hkeeps,
      hchanges.rootReady hs h.ready, fun r hp => hkeep (h.dirs r hp), h.clear, h.staged⟩, ?_,
      hbackups⟩
    rcases makeDirs_node hmake stage.target_path with h' | ⟨-, -, h'⟩
    · simpa [h'] using hpresent
    · simp [h']
  · rintro s' ⟨h, hpresent⟩ (hfault | ⟨e, hrefused⟩)
    · exact h.failed (.inl ⟨_, hfault, rfl⟩)
    · obtain ⟨t', ht', -⟩ := makeDirs_backups hs h.ready
      rw [ht'] at hrefused
      cases hrefused
  · rintro s' ⟨htouched, hchanges, hv, hpub⟩
    exact ⟨by simp [htouched], hchanges, hv, hpub⟩
  · rintro s' t ⟨htouched, hchanges, hv, hpub⟩ hren
    obtain ⟨t', ht', hchanges', hpublished⟩ := hv.rename_staged hs hpub hstaged
    obtain rfl : t' = t := Except.ok.inj (ht'.symm.trans hren)
    exact ⟨hchanges.trans hchanges', by simpa [hstaged, htouched] using hpublished⟩
  · rintro s' ⟨htouched, hchanges, hv, hpub⟩ (hfault | ⟨e, hrefused⟩)
    · exact ⟨rfl, hchanges, .inl ⟨_, hfault, rfl⟩, .inr ⟨htouched, hv.toTouched⟩⟩
    · obtain ⟨t', ht', -⟩ := hv.rename_staged hs hpub hstaged
      rw [ht'] at hrefused
      cases hrefused

/-- **One stage**: its publication returns with the stage published, or raises an `OSError` and
leaves a target that is as it was or can be rolled back. -/
theorem publishStage_spec (hs : stage ∈ staging.stages)
    (hfresh : t₀.node stage.backup_path = none) (hr : RootReady staging s.fs)
    (hk : Keeps staging stage t₀ s.fs) :
    Prog.Triple (fun s' => s' = s) (publishStage job i stage)
      (fun _ => PublishedFrom staging t₀ stage s) (FailedFrom staging t₀ job stage s) := by
  have hexists : s.fs.pathExists stage.staged_path = t₀.pathExists stage.staged_path :=
    pathExists_congr (hk.staged _ (prefix_refl _))
  rintro s' rfl
  rw [publishStage, get_bind, hexists]
  cases hstaged : t₀.pathExists stage.staged_path with
  | false => exact ⟨.refl _ _ _, by simp [hstaged]⟩
  | true =>
    refine (Prog.Triple.bind (makeTargetDir_spec hs hr hk hstaged) fun _ s'' h => ?_) _ rfl
    rw [get_bind]
    -- a target that is a dangling symbolic link counts as present
    cases hpresent : s''.fs.lexists stage.target_path with
    | false => exact publishAbsent_spec hs hfresh s'' ⟨h, lexists_eq_false.mp hpresent⟩
    | true => exact publishPresent_spec hs hfresh hstaged s'' ⟨h, lexists_eq_true.mp hpresent⟩

end Publish

/-! ## Rolling back -/

/-- What a rollback relies on: the stages to undo are touched, and every other target is as it
was. -/
structure Rollbackable (staging : Staging) (t₀ : Fs) (touched : List OutputStage) (t : Fs) :
    Prop where
  ready : RootReady staging t
  nodup : touched.Nodup
  subset : touched ⊆ staging.stages
  undo : ∀ stage ∈ touched, Touched staging t₀ t stage
  others : ∀ stage ∈ staging.stages, stage ∉ touched → AgreeOn (staging.region stage) t₀ t

namespace Rollbackable

variable {touched rest : List OutputStage}

theorem reverse (h : Rollbackable staging t₀ touched t) :
    Rollbackable staging t₀ touched.reverse t where
  ready := h.ready
  nodup := nodup_reverse.mpr h.nodup
  subset _ hs := h.subset (mem_reverse.mp hs)
  undo stage hs := h.undo stage (mem_reverse.mp hs)
  others stage hs hn := h.others stage hs fun hm => hn (mem_reverse.mpr hm)

theorem tail (h : Rollbackable staging t₀ (stage :: rest) t) (hc : ChangesOnly staging stage t t')
    (hrestored : AgreeOn (staging.region stage) t₀ t') : Rollbackable staging t₀ rest t' := by
  have hs : stage ∈ staging.stages := h.subset mem_cons_self
  obtain ⟨hnot, hnodup⟩ := nodup_cons.mp h.nodup
  refine ⟨hc.rootReady hs h.ready, hnodup, fun _ hm => h.subset (mem_cons_of_mem _ hm), ?_, ?_⟩
  · intro other ho
    have hne : stage ≠ other := fun heq => hnot (heq ▸ ho)
    have hmem := mem_cons_of_mem stage ho
    exact (hc.keeps hs (h.subset hmem) hne h.ready).touched (h.undo other hmem)
  · intro other ho hn
    rcases eq_or_ne stage other with rfl | hne
    · exact hrestored
    · have hn' : other ∉ stage :: rest := fun hm => by
        rcases mem_cons.mp hm with heq | hm
        · exact hne heq.symm
        · exact hn hm
      exact (h.others other ho hn').trans (hc.keeps hs ho hne h.ready).target

end Rollbackable

theorem removeTarget_spec (stage : OutputStage) (t : Fs) :
    ∃ t', removeTarget stage t = (.ok (), t') ∧
      ∀ r, t'.node r = if stage.target_path <+: r then none else t.node r := by
  refine ⟨if t.lexists stage.target_path then t.remove stage.target_path else t, rfl,
    fun r => ?_⟩
  split
  · rfl
  · rename_i hp
    have hnone : t.node stage.target_path = none := by simpa using hp
    by_cases hr : stage.target_path <+: r
    · obtain ⟨s, rfl⟩ := hr
      rw [if_pos (prefix_append _ s), t.node_append_eq_none hnone s]
    · rw [if_neg hr]

/-- **One stage is undone**: the rollback of a touched stage does not raise, and the target stands
for what it stood for. -/
theorem rollbackStage_of_touched (hs : stage ∈ staging.stages) (h : Touched staging t₀ t stage) :
    ∃ t', rollbackStage stage t = (.ok (), t') ∧ ChangesOnly staging stage t t' ∧
      AgreeOn (staging.region stage) t₀ t' := by
  obtain ⟨t₁, hremove, hnode₁⟩ := removeTarget_spec stage t
  have hslots : ∀ {r}, staging.root <+: r → ¬ stage.target_path <+: r :=
    not_overlap_target hs h.outside
  have hbackup : ∀ s, t₁.node (stage.backup_path ++ s) = t.node (stage.backup_path ++ s) :=
    fun s => by
      rw [hnode₁, if_neg (hslots ((root_prefix_backup hs).trans (prefix_append _ s)))]
  have hbackup₁ : t₁.node stage.backup_path = t.node stage.backup_path := by
    simpa using hbackup []
  have hchanges₁ : ChangesOnly staging stage t t₁ := fun r ht _ _ => by
    rw [hnode₁, if_neg fun hp => h.outside (ht hp)]
    exact .inl rfl
  have hdirs : ∀ r, r <+: stage.target_path.dropLast → t₁.node r = some .dir := fun r hp => by
    rw [hnode₁, if_neg (fun hr => h.outside (hr.trans (prefix_root_of_dropLast hr hp))),
      h.parent r hp]
  rw [rollbackStage, bind_of_ok hremove, restoreBackup, get_bind]
  rcases h.saved with ⟨habsent, hnone⟩ | ⟨hpresent, hsaved⟩
  · rw [if_neg (by simp [hbackup₁, hnone])]
    refine ⟨t₁, rfl, hchanges₁, ?_⟩
    rintro r ⟨⟨s, rfl⟩, -⟩
    rw [hnode₁, if_pos (prefix_append _ s), t₀.node_append_eq_none habsent s]
  · have hsrc : t₁.node stage.backup_path ≠ none := by
      have h' := hsaved []
      simp only [append_nil] at h'
      rwa [hbackup₁, h']
    obtain ⟨t₂, hmake⟩ := exists_makeDirs fun r hp => Or.inr (hdirs r hp)
    -- the directories are there, so that creating them changes nothing
    have hnode₂ : ∀ r, t₂.node r = t₁.node r := fun r => by
      rw [(makeDirs_eq_ok hmake).2]
      split
      · rename_i hp
        exact (hdirs r hp).symm
      · rfl
    have hne : stage.backup_path ≠ stage.target_path := (target_ne_backup hs).symm
    obtain ⟨t₃, hren⟩ : ∃ t₃, t₂.rename stage.backup_path stage.target_path = .ok t₃ := exists_rename
      (hnode₂ _ ▸ hsrc)
      ((hnode₂ _).trans (hdirs _ (prefix_refl _)))
      (Staging.not_root_prefix hs (prefix_refl _) (root_prefix_backup hs))
      ((hnode₂ _).trans (by rw [hnode₁, if_pos (prefix_refl _)]))
    rw [if_pos (lexists_eq_true.mpr hsrc), bind_of_ok (osCall_of_ok hmake), osCall_of_ok hren]
    have hchanges₃ : ChangesOnly staging stage t₂ t₃ :=
      changesOnly_rename hne hren h.outside (.inr (.inr rfl)) (.inl rfl)
    have hchanges₂ : ChangesOnly staging stage t₁ t₂ := fun r _ _ _ => .inl (hnode₂ r)
    refine ⟨t₃, rfl, (hchanges₁.trans hchanges₂).trans hchanges₃, ?_⟩
    rintro r ⟨⟨s, rfl⟩, -⟩
    rw [rename_node_append hne hren, hnode₂, hbackup, hsaved]

/-- **A rollback never raises and restores every target.** -/
theorem rollbackPublishedOutputs_spec (touched : List OutputStage) :
    Prog.Triple (Rollbackable staging t₀ touched) (rollbackPublishedOutputs touched)
      (fun _ t => ∀ stage ∈ staging.stages, AgreeOn (staging.region stage) t₀ t)
      (fun _ _ => False) := by
  have hloop := Prog.Triple.forEach (E := fun (_ : PyError) _ => False)
    (I := Rollbackable staging t₀) (f := rollbackStage) ?_ touched.reverse
  · exact hloop.consequence (fun _ h => h.reverse)
      (fun _ t h stage hs => h.others stage hs not_mem_nil) fun _ _ h => h
  · intro stage rest t h
    obtain ⟨t', hrun, hchanges, hrestored⟩ := rollbackStage_of_touched
      (h.subset mem_cons_self) (h.undo stage mem_cons_self)
    rw [hrun]
    exact h.tail hchanges hrestored

/-! ## The loop of a publication -/

/-- What a publication leaves: each staged output stands at its target, and the targets of the
other stages are as they were. -/
structure AllPublished (staging : Staging) (t₀ : Fs) (published : List OutputStage) (t : Fs) :
    Prop where
  ready : RootReady staging t
  published_eq : published = staging.stages.filter fun stage => t₀.pathExists stage.staged_path
  moved : ∀ stage ∈ published, Published staging t₀ t stage
  others : ∀ stage ∈ staging.stages, stage ∉ published → AgreeOn (staging.region stage) t₀ t

theorem AllPublished.publishable {published : List OutputStage}
    (h : AllPublished staging t₀ published t) (hs : stage ∈ staging.stages) :
    Publishable staging t₀ stage := by
  intro hstaged
  have hmem : stage ∈ published := h.published_eq ▸ mem_filter.mpr ⟨hs, hstaged⟩
  exact (h.moved stage hmem).publishable hstaged

theorem AllPublished.rollbackable {published : List OutputStage}
    (h : AllPublished staging t₀ published t) : Rollbackable staging t₀ published t where
  ready := h.ready
  nodup := h.published_eq ▸ staging.nodup.filter _
  subset _ hs := (mem_filter.mp (h.published_eq ▸ hs)).1
  undo stage hs := (h.moved stage hs).toTouched
  others := h.others

/-- The invariant of the loop: the stages visited so far are published or had nothing staged, and
the others are untouched. -/
structure Publishing (staging : Staging) (t₀ : Fs) (rest : List (OutputStage × ℕ))
    (s : PublishState) : Prop where
  ready : RootReady staging s.fs
  pending : ∀ stage ∈ rest.map Prod.fst, Keeps staging stage t₀ s.fs
  visited : ∃ done, done ++ rest.map Prod.fst = staging.stages ∧
    s.touched = done.filter (fun stage => t₀.pathExists stage.staged_path) ∧
      ∀ stage ∈ done, if stage ∈ s.touched then Published staging t₀ s.fs stage
        else AgreeOn (staging.region stage) t₀ s.fs

theorem publishing_init (hr : RootReady staging t)
    (hk : ∀ stage ∈ staging.stages, Keeps staging stage t₀ t) :
    Publishing staging t₀ staging.stages.zipIdx ⟨t, []⟩ where
  ready := hr
  pending stage hs := hk stage (by simpa using hs)
  visited := ⟨[], by simp, by simp, by simp⟩

theorem Publishing.allPublished {s : PublishState} (h : Publishing staging t₀ [] s) :
    AllPublished staging t₀ s.touched s.fs := by
  obtain ⟨done, hdone, htouched, hvisited⟩ := h.visited
  obtain rfl : done = staging.stages := by simpa using hdone
  refine ⟨h.ready, htouched, fun stage hs => ?_, fun stage hs hn => ?_⟩
  · have hmem : stage ∈ staging.stages := (mem_filter.mp (htouched ▸ hs)).1
    simpa only [hs, if_true] using hvisited stage hmem
  · simpa only [hn, if_false] using hvisited stage hs

/-- How a publication raises. -/
def PublicationFailed (staging : Staging) (t₀ : Fs) (job : Job) (e : PyError) (s : PublishState) :
    Prop :=
  e = .osError ∧ Rollbackable staging t₀ s.touched s.fs ∧
    ∃ stage ∈ staging.stages, MayFail staging t₀ job stage

section Loop

variable {job : Job} {s s' : PublishState} {i : ℕ} {rest : List (OutputStage × ℕ)}

theorem visited_of_keeps (hs : stage ∈ staging.stages) (hk : Keeps staging stage t t')
    {touched : List OutputStage}
    (h : if stage ∈ touched then Published staging t₀ t stage
      else AgreeOn (staging.region stage) t₀ t) :
    if stage ∈ touched then Published staging t₀ t' stage
    else AgreeOn (staging.region stage) t₀ t' := by
  by_cases hm : stage ∈ touched
  · rw [if_pos hm] at h ⊢
    exact hk.published hs h
  · rw [if_neg hm] at h ⊢
    exact h.trans hk.target

theorem visiting_nodup {done : List OutputStage}
    (hdone : done ++ stage :: rest.map Prod.fst = staging.stages) :
    stage ∈ staging.stages ∧ stage ∉ done ∧ stage ∉ rest.map Prod.fst ∧
      (∀ other ∈ done, other ∈ staging.stages) ∧
        ∀ other ∈ rest.map Prod.fst, other ∈ staging.stages ∧ other ∉ done := by
  have hnodup := hdone ▸ staging.nodup
  rw [nodup_append] at hnodup
  obtain ⟨-, hrest, hdisjoint⟩ := hnodup
  have hmem : ∀ other ∈ stage :: rest.map Prod.fst, other ∈ staging.stages ∧ other ∉ done :=
    fun other ho => ⟨hdone ▸ mem_append_right _ ho, fun hd => hdisjoint _ hd _ ho rfl⟩
  exact ⟨(hmem stage mem_cons_self).1, (hmem stage mem_cons_self).2,
    (nodup_cons.mp hrest).1, fun other ho => hdone ▸ mem_append_left _ ho,
    fun other ho => hmem other (mem_cons_of_mem _ ho)⟩

/-- **The step of the loop**, when the publication of a stage returns. -/
theorem Publishing.step (h : Publishing staging t₀ ((stage, i) :: rest) s)
    (hstep : PublishedFrom staging t₀ stage s s') : Publishing staging t₀ rest s' := by
  obtain ⟨done, hdone, htouched, hvisited⟩ := h.visited
  obtain ⟨hs, hnd, hnr, hd, hr⟩ := visiting_nodup hdone
  obtain ⟨hchanges, hcase⟩ := hstep
  have hkeeps : ∀ other ∈ staging.stages, stage ≠ other → Keeps staging other s.fs s'.fs :=
    fun other ho hne => hchanges.keeps hs ho hne h.ready
  refine ⟨hchanges.rootReady hs h.ready, fun other ho => ?_, done ++ [stage], by simpa using hdone,
    ?_, ?_⟩
  · have hne : stage ≠ other := fun heq => hnr (heq ▸ ho)
    exact (h.pending other (mem_cons_of_mem _ ho)).trans (hkeeps other (hr other ho).1 hne)
  · rw [filter_append, ← htouched]
    split at hcase <;> simp_all
  · intro other ho
    rcases mem_append.mp ho with ho | ho
    · have hne : stage ≠ other := fun heq => hnd (heq ▸ ho)
      have hold := visited_of_keeps (hd other ho) (hkeeps other (hd other ho) hne)
        (hvisited other ho)
      have hmem : other ∈ s'.touched ↔ other ∈ s.touched := by
        split at hcase
        · rw [hcase.1]
          simp [hne.symm]
        · rw [hcase]
      simpa only [hmem] using hold
    · obtain rfl : other = stage := by simpa using ho
      split at hcase
      · rw [if_pos (by simp [hcase.1])]
        exact hcase.2
      · have hnot : other ∉ s'.touched := by
          rw [hcase, htouched]
          exact fun hm => hnd (mem_filter.mp hm).1
        rw [if_neg hnot, hcase]
        exact (h.pending other mem_cons_self).target

/-- The step of the loop, when the publication of a stage raises. -/
theorem Publishing.failed (h : Publishing staging t₀ ((stage, i) :: rest) s) {e : PyError}
    (hstep : FailedFrom staging t₀ job stage s e s') : PublicationFailed staging t₀ job e s' := by
  obtain ⟨done, hdone, htouched, hvisited⟩ := h.visited
  obtain ⟨hs, hnd, hnr, hd, hr⟩ := visiting_nodup hdone
  obtain ⟨he, hchanges, hmay, hcase⟩ := hstep
  have hkeeps : ∀ other ∈ staging.stages, stage ≠ other → Keeps staging other s.fs s'.fs :=
    fun other ho hne => hchanges.keeps hs ho hne h.ready
  have hsub : s.touched ⊆ done := fun _ hm => (mem_filter.mp (htouched ▸ hm)).1
  have hns : stage ∉ s.touched := fun hm => hnd (hsub hm)
  have hundo : ∀ other ∈ s.touched, Touched staging t₀ s'.fs other := by
    intro other ho
    have hne : stage ≠ other := fun heq => hns (heq ▸ ho)
    have hpub := hvisited other (hsub ho)
    rw [if_pos ho] at hpub
    exact (hkeeps other (hd other (hsub ho)) hne).touched hpub.toTouched
  have hother : ∀ other ∈ staging.stages, stage ≠ other → other ∉ s.touched →
      AgreeOn (staging.region other) t₀ s'.fs := by
    intro other ho hne hn
    refine AgreeOn.trans ?_ (hkeeps other ho hne).target
    rcases mem_append.mp (hdone ▸ ho) with hd' | hr'
    · simpa only [hn, if_false] using hvisited other hd'
    · exact (h.pending other hr').target
  have hnodup : s.touched.Nodup :=
    htouched ▸ ((nodup_append.mp (hdone ▸ staging.nodup)).1).filter _
  refine ⟨he, ⟨hchanges.rootReady hs h.ready, ?_, ?_, ?_, ?_⟩, stage, hs, hmay⟩
  · rcases hcase with ⟨ht, -⟩ | ⟨ht, -⟩ <;> rw [ht]
    · exact hnodup
    · refine nodup_append.mpr ⟨hnodup, nodup_singleton _, fun other ho last hl heq => ?_⟩
      obtain rfl : last = stage := mem_singleton.mp hl
      exact hns (heq ▸ ho)
  · rcases hcase with ⟨ht, -⟩ | ⟨ht, -⟩ <;> rw [ht]
    · exact fun _ hm => hd _ (hsub hm)
    · exact append_subset.mpr ⟨fun _ hm => hd _ (hsub hm), by simpa using hs⟩
  · rcases hcase with ⟨ht, -⟩ | ⟨ht, hnow⟩ <;> rw [ht]
    · exact hundo
    · intro other ho
      rcases mem_append.mp ho with ho | ho
      · exact hundo other ho
      · obtain rfl : other = stage := by simpa using ho
        exact hnow
  · intro other ho hn
    rcases eq_or_ne stage other with rfl | hne
    · rcases hcase with ⟨-, hnow⟩ | ⟨ht, -⟩
      · exact hnow
      · exact absurd (by simp [ht]) hn
    · refine hother other ho hne fun hm => hn ?_
      rcases hcase with ⟨ht, -⟩ | ⟨ht, -⟩ <;> simp [ht, hm]

/-- **A publication** returns with every staged output at its target, or raises an `OSError` with
every target as it was or ready to be rolled back. -/
theorem publishLoop_spec (job : Job)
    (hfresh : ∀ stage ∈ staging.stages, t₀.node stage.backup_path = none) :
    Prog.Triple (Publishing staging t₀ staging.stages.zipIdx) (publishLoop job staging.stages)
      (fun _ s => AllPublished staging t₀ s.touched s.fs) (PublicationFailed staging t₀ job) := by
  have hloop := Prog.Triple.forEach (I := Publishing staging t₀)
    (E := PublicationFailed staging t₀ job) (f := fun p => publishStage job p.2 p.1) ?_
    staging.stages.zipIdx
  · exact hloop.consequence (fun _ h => h) (fun _ _ h => h.allPublished) fun _ _ h => h
  · rintro ⟨stage, i⟩ rest
    have hspec : ∀ s, Publishing staging t₀ ((stage, i) :: rest) s →
        Prog.Triple (fun s' => s' = s) (publishStage job i stage)
          (fun _ => PublishedFrom staging t₀ stage s) (FailedFrom staging t₀ job stage s) := by
      intro s h
      obtain ⟨done, hdone, -⟩ := h.visited
      have hs := (visiting_nodup hdone).1
      exact publishStage_spec hs (hfresh stage hs) h.ready (h.pending stage mem_cons_self)
    exact Prog.Triple.intro (fun s h _ s' hrun => h.step ((hspec s h).of_ok rfl hrun))
      fun s h _ s' hrun => h.failed ((hspec s h).of_error rfl hrun)

/-- **`_publish_staged_outputs`** returns with every staged output at its target, or raises with
every target as it was. -/
theorem publishStagedOutputs_spec
    (hfresh : ∀ stage ∈ staging.stages, t₀.node stage.backup_path = none) :
    Prog.Triple
      (fun t => RootReady staging t ∧ ∀ stage ∈ staging.stages, Keeps staging stage t₀ t)
      (publishStagedOutputs job staging.stages) (AllPublished staging t₀)
      (fun _ t => (∀ stage ∈ staging.stages, AgreeOn (staging.region stage) t₀ t) ∧
        ∃ stage ∈ staging.stages, MayFail staging t₀ job stage) := by
  rintro t ⟨hr, hk⟩
  have hloop := publishLoop_spec job hfresh _ (publishing_init hr hk)
  unfold publishStagedOutputs
  rcases hrun : publishLoop job staging.stages ⟨t, []⟩ with ⟨e | _, s⟩
  · rw [hrun] at hloop
    obtain ⟨rfl, hrollback, hmay⟩ := hloop
    have hundone := rollbackPublishedOutputs_spec s.touched s.fs hrollback
    rcases hback : rollbackPublishedOutputs s.touched s.fs with ⟨e | _, t'⟩
    · rw [hback] at hundone
      exact hundone.elim
    · rw [hback] at hundone
      simp only [bind_of_ok hback, raise_apply]
      exact ⟨hundone, hmay⟩
  · rw [hrun] at hloop
    exact hloop

end Loop

end ZapTrace
