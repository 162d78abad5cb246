import Mathlib.Data.List.Sort
import Mathlib.Data.String.Basic
import ZapTrace.Library.Run
import ZapTrace.Agent.Execution

/-!
# Output locks

Jobs of different sessions run concurrently. A job takes one lock for each of its targets, in the
order of the paths, before it starts its worker, and releases them when it ends. The locks live in a
weak registry under the text of the target: an entry goes away when no job refers to its lock.

## Main results

* `LockInv.step`: a target has one lock, and a lock one owner, in every interleaving
* `LockInv.targets_ne`: two jobs that hold their locks share no target
* `outputsExclusive_iff`: the runs in which targets never overlap are those whose acquisitions are
  clear of nested targets
-/

namespace ZapTrace

open List Option Function

open Function (update)

/-- A job between the request of its output locks and their release: its targets in the order of
acquisition, their locks, and how many of these it has acquired. -/
structure LockedJob where
  session_id : String
  targets : List Path
  locks : List ℕ
  acquired : ℕ
deriving DecidableEq

def LockedJob.heldLocks (job : LockedJob) : List ℕ := job.locks.take job.acquired

def LockedJob.Holding (job : LockedJob) : Prop := job.acquired = job.locks.length

instance (job : LockedJob) : Decidable job.Holding :=
  inferInstanceAs (Decidable (job.acquired = job.locks.length))

/-- The job of the given session has acquired one more lock. -/
def LockedJob.advance (session_id : String) (job : LockedJob) : LockedJob :=
  if job.session_id = session_id then { job with acquired := job.acquired + 1 } else job

/-- The jobs that run, the weak registry `_OUTPUT_LOCKS`, the session that owns each lock, and the
number of locks created so far. -/
structure LockState where
  jobs : List LockedJob
  output_locks : Path → Option ℕ
  owner : ℕ → Option String
  created : ℕ

/-- What can happen to the output locks. -/
inductive LockAction
  | start (session_id : String) (stages : List OutputStage)
  | acquire (session_id : String)
  | cancel (session_id : String)
  | work (session_id : String)
  | finish (session_id : String)
  | collect (target : Path)

/-- `_output_execution_lock`: the registered lock of a target, or a new one. -/
def outputExecutionLock (s : LockState) (target_path : Path) : LockState × ℕ :=
  match s.output_locks target_path with
  | some lock => (s, lock)
  | none =>
    ({ s with
        output_locks := update s.output_locks target_path (some s.created)
        created := s.created + 1 }, s.created)

/-- The locks of the targets in order. -/
def outputExecutionLocks (s : LockState) : List Path → LockState × List ℕ
  | [] => (s, [])
  | target :: targets =>
    let (s, lock) := outputExecutionLock s target
    let (s, locks) := outputExecutionLocks s targets
    (s, lock :: locks)

/-- `sorted({stage.target_path for stage in stages})` -/
def sortedTargets (stages : List OutputStage) : List Path :=
  (stages.map OutputStage.target_path).dedup.insertionSort (· ≤ ·)

namespace LockState

/-- The job of a session, of which there is at most one: the session is locked while it runs. -/
def job? (s : LockState) (session_id : String) : Option LockedJob :=
  s.jobs.find? fun job => job.session_id = session_id

/-- `_prepare_output_staging` and the request of the locks by `_acquire_output_locks`. -/
def start (s : LockState) (session_id : String) (stages : List OutputStage) : Option LockState :=
  match s.job? session_id, validateNonOverlappingOutputTargets stages with
  | none, .ok () =>
    let targets := sortedTargets stages
    let (s, locks) := outputExecutionLocks s targets
    some { s with jobs := ⟨session_id, targets, locks, 0⟩ :: s.jobs }
  | _, _ => none

/-- `lock.acquire()` on the next lock of a job, possible when nobody owns it. -/
def acquire (s : LockState) (session_id : String) : Option LockState :=
  match s.job? session_id with
  | none => none
  | some job =>
    match job.locks[job.acquired]? with
    | none => none
    | some lock =>
      if s.owner lock = none then
        some
          { s with
            jobs := s.jobs.map (·.advance session_id)
            owner := update s.owner lock (some session_id) }
      else none

/-- The release of what a job has acquired; the job refers to its locks no longer. -/
def release (s : LockState) (job : LockedJob) : LockState :=
  { s with
    jobs := s.jobs.filter fun other => other.session_id ≠ job.session_id
    owner := fun lock => if lock ∈ job.heldLocks then none else s.owner lock }

/-- One step: a cancellation ends a job that still acquires, and a job that holds its locks works
on its outputs until it ends, however it ends. -/
def step (s : LockState) : LockAction → Option LockState
  | .start session_id stages => s.start session_id stages
  | .acquire session_id => s.acquire session_id
  | .cancel session_id => (s.job? session_id).bind fun job =>
      if job.Holding then none else some (s.release job)
  | .work session_id => (s.job? session_id).bind fun job => if job.Holding then some s else none
  | .finish session_id => (s.job? session_id).bind fun job =>
      if job.Holding then some (s.release job) else none
  | .collect target => (s.output_locks target).bind fun lock =>
      if ∀ job ∈ s.jobs, lock ∉ job.locks then
        some { s with output_locks := update s.output_locks target none }
      else none

/-- No job, no lock. -/
def init : LockState := ⟨[], fun _ => none, fun _ => none, 0⟩

end LockState

/-! ## Claims on the state -/

/-- Jobs that hold their output locks have targets that do not overlap. -/
def OutputsExclusive (s : LockState) : Prop :=
  ∀ job ∈ s.jobs, ∀ other ∈ s.jobs, job.session_id ≠ other.session_id →
    job.Holding → other.Holding → ∀ p ∈ job.targets, ∀ q ∈ other.targets, ¬ Overlap p q

/-- A job that takes its last lock meets no holder of a target properly above or below one of its
own. -/
def ClearOfNested (s : LockState) : LockAction → Prop
  | .acquire session_id => ∀ job ∈ s.jobs, job.session_id = session_id →
      job.acquired + 1 = job.locks.length → ∀ other ∈ s.jobs, other.session_id ≠ session_id →
        other.Holding → ∀ p ∈ job.targets, ∀ q ∈ other.targets, p ≠ q → ¬ Overlap p q
  | _ => True

/-- A target has one lock and a lock one owner. -/
structure LockInv (s : LockState) : Prop where
  sessions : s.jobs.Pairwise fun job other => job.session_id ≠ other.session_id
  /-- The locks a job refers to are registered under its targets. -/
  registered : ∀ job ∈ s.jobs, job.locks.map some = job.targets.map s.output_locks
  /-- A job owns the locks it has acquired. -/
  owned : ∀ job ∈ s.jobs, ∀ lock ∈ job.heldLocks, s.owner lock = some job.session_id

namespace LockInv

variable {s s' : LockState} {job other : LockedJob}

theorem eq_of_session_id (h : LockInv s) (hj : job ∈ s.jobs) (ho : other ∈ s.jobs)
    (hsession : job.session_id = other.session_id) : job = other := by
  by_contra hne
  have : Std.Symm fun a b : LockedJob => a.session_id ≠ b.session_id := ⟨fun _ _ hab => hab.symm⟩
  exact h.sessions.forall hj ho hne hsession

/-- **Two jobs that hold their locks share no target.** -/
theorem targets_ne (h : LockInv s) (hj : job ∈ s.jobs) (ho : other ∈ s.jobs)
    (hne : job.session_id ≠ other.session_id) (hjh : job.Holding) (hoh : other.Holding)
    {p q : Path} (hp : p ∈ job.targets) (hq : q ∈ other.targets) : p ≠ q := by
  rintro rfl
  have hlock : ∀ {job : LockedJob}, job ∈ s.jobs → job.Holding → p ∈ job.targets →
      ∃ lock, s.output_locks p = some lock ∧ s.owner lock = some job.session_id := by
    intro job hj hholding hp
    have hmem : s.output_locks p ∈ job.locks.map some :=
      h.registered job hj ▸ mem_map_of_mem hp
    obtain ⟨lock, hl, heq⟩ := mem_map.mp hmem
    refine ⟨lock, heq.symm, h.owned job hj lock ?_⟩
    rwa [LockedJob.heldLocks, hholding, take_length]
  obtain ⟨lock, hreg, howner⟩ := hlock hj hjh hp
  obtain ⟨lock', hreg', howner'⟩ := hlock ho hoh hq
  obtain rfl : lock = lock' := some.inj (hreg.symm.trans hreg')
  exact hne (some.inj (howner.symm.trans howner'))

end LockInv

/-! ## The steps keep the invariant -/

section Steps

variable {s s' : LockState} {job : LockedJob} {session_id : String}

theorem job?_eq_some (h : s.job? session_id = some job) :
    job ∈ s.jobs ∧ job.session_id = session_id := by
  refine ⟨mem_of_find?_eq_some h, ?_⟩
  simpa using find?_some h

theorem job?_eq_none (h : s.job? session_id = none) : ∀ job ∈ s.jobs, job.session_id ≠ session_id :=
  fun job hj => by simpa using find?_eq_none.mp h job hj

@[simp] theorem advance_session_id (job : LockedJob) :
    (job.advance session_id).session_id = job.session_id := by
  unfold LockedJob.advance
  split <;> rfl

@[simp] theorem advance_locks (job : LockedJob) :
    (job.advance session_id).locks = job.locks := by
  unfold LockedJob.advance
  split <;> rfl

@[simp] theorem advance_targets (job : LockedJob) :
    (job.advance session_id).targets = job.targets := by
  unfold LockedJob.advance
  split <;> rfl

theorem advance_of_ne (h : job.session_id ≠ session_id) : job.advance session_id = job :=
  if_neg h

/-- What is registered stays registered, under the lock of the target. -/
def Registers (s s' : LockState) : Prop :=
  (∀ p lock, s.output_locks p = some lock → s'.output_locks p = some lock) ∧
    s'.jobs = s.jobs ∧ s'.owner = s.owner

theorem outputExecutionLock_spec (s : LockState) (p : Path) :
    (outputExecutionLock s p).1.output_locks p = some (outputExecutionLock s p).2 ∧
      Registers s (outputExecutionLock s p).1 := by
  unfold outputExecutionLock
  split
  · rename_i lock hlock
    exact ⟨hlock, fun _ _ h => h, rfl, rfl⟩
  · rename_i hnone
    refine ⟨update_self .., fun q lock hq => ?_, rfl, rfl⟩
    have hne : q ≠ p := by
      rintro rfl
      simp [hnone] at hq
    exact (update_of_ne hne ..).trans hq

theorem outputExecutionLocks_spec (s : LockState) (targets : List Path) :
    (outputExecutionLocks s targets).2.map some =
        targets.map (outputExecutionLocks s targets).1.output_locks ∧
      Registers s (outputExecutionLocks s targets).1 := by
  induction targets generalizing s with
  | nil => exact ⟨rfl, fun _ _ h => h, rfl, rfl⟩
  | cons target targets ih =>
    obtain ⟨hlock, hkeep, hjobs, howner⟩ := outputExecutionLock_spec s target
    obtain ⟨hlocks, hkeep', hjobs', howner'⟩ := ih (outputExecutionLock s target).1
    refine ⟨?_, fun p lock h => hkeep' p lock (hkeep p lock h), hjobs'.trans hjobs,
      howner'.trans howner⟩
    simp only [outputExecutionLocks, map_cons, hlocks, hkeep' _ _ hlock]

theorem registered_of_keep {locks : List ℕ} {targets : List Path} {f g : Path → Option ℕ}
    (h : locks.map some = targets.map f)
    (hkeep : ∀ p lock, lock ∈ locks → f p = some lock → g p = some lock) :
    locks.map some = targets.map g := by
  rw [h]
  refine map_congr_left fun p hp => ?_
  have hmem : f p ∈ locks.map some := h ▸ mem_map_of_mem hp
  obtain ⟨lock, hl, heq⟩ := mem_map.mp hmem
  rw [← heq, hkeep p lock hl heq.symm]

theorem LockInv.start (h : LockInv s) {stages : List OutputStage}
    (hstep : s.start session_id stages = some s') : LockInv s' := by
  unfold LockState.start at hstep
  split at hstep
  · rename_i hnone _
    obtain ⟨hlocks, hkeep, hjobs, howner⟩ := outputExecutionLocks_spec s (sortedTargets stages)
    cases hstep
    simp only [hjobs, howner]
    refine ⟨pairwise_cons.mpr ⟨fun job hj => (job?_eq_none hnone job hj).symm, h.sessions⟩,
      fun job hj => ?_, fun job hj => ?_⟩
    · rcases mem_cons.mp hj with rfl | hj
      · exact hlocks
      · exact registered_of_keep (h.registered job hj) fun p lock _ => hkeep p lock
    · rcases mem_cons.mp hj with rfl | hj
      · simp [LockedJob.heldLocks]
      · exact h.owned job hj
  · cases hstep

theorem acquire_eq_some (hstep : s.acquire session_id = some s') :
    ∃ job lock, job ∈ s.jobs ∧ job.session_id = session_id ∧ job.locks[job.acquired]? = some lock ∧
      s.owner lock = none ∧ s'.jobs = s.jobs.map (·.advance session_id) ∧
        s'.output_locks = s.output_locks ∧ s'.owner = update s.owner lock (some session_id) := by
  unfold LockState.acquire at hstep
  split at hstep
  · cases hstep
  · rename_i job hjob
    obtain ⟨hj, hsession⟩ := job?_eq_some hjob
    split at hstep
    · cases hstep
    · rename_i lock hlock
      split_ifs at hstep with howner
      cases hstep
      exact ⟨job, lock, hj, hsession, hlock, howner, rfl, rfl, rfl⟩

theorem LockInv.acquire (h : LockInv s) (hstep : s.acquire session_id = some s') :
    LockInv s' := by
  obtain ⟨job, lock, hj, hsession, hlock, hfree, hjobs, hregistry, howner⟩ := acquire_eq_some hstep
  refine ⟨?_, ?_, ?_⟩
  · rw [hjobs, pairwise_map]
    simpa using h.sessions
  · intro other ho
    obtain ⟨old, hold, rfl⟩ := mem_map.mp (hjobs ▸ ho)
    simpa [hregistry] using h.registered old hold
  · intro other ho held hheld
    obtain ⟨old, hold, rfl⟩ := mem_map.mp (hjobs ▸ ho)
    rw [howner, advance_session_id]
    by_cases hsame : old.session_id = session_id
    · -- the job that acquires owns what it had acquired and the new lock
      obtain rfl : old = job := h.eq_of_session_id hold hj (hsame.trans hsession.symm)
      have hheld' : held ∈ old.heldLocks ∨ held = lock := by
        rw [LockedJob.heldLocks, advance_locks, LockedJob.advance, if_pos hsame,
          take_add_one, hlock] at hheld
        simpa [LockedJob.heldLocks] using hheld
      rcases eq_or_ne held lock with rfl | hne
      · rw [update_self, hsession]
      · rw [update_of_ne hne]
        exact h.owned old hold held (hheld'.resolve_right hne)
    · rw [advance_of_ne hsame] at hheld
      have howned := h.owned old hold held hheld
      have hne : held ≠ lock := by
        rintro rfl
        simp [hfree] at howned
      rw [update_of_ne hne, howned]

theorem LockInv.release (h : LockInv s) (hj : job ∈ s.jobs) : LockInv (s.release job) where
  sessions := h.sessions.filter _
  registered other ho := h.registered other (mem_filter.mp ho).1
  owned := by
    intro other ho lock hlock
    obtain ⟨hmem, hne⟩ := mem_filter.mp ho
    have howned := h.owned other hmem lock hlock
    -- the other job owns its locks, so that the job that ends does not
    have hnot : lock ∉ job.heldLocks := by
      intro hheld
      rw [h.owned job hj lock hheld] at howned
      simp [some.inj howned] at hne
    simp only [LockState.release, hnot, if_false]
    exact howned

theorem LockInv.collect (h : LockInv s) {target : Path} {lock : ℕ}
    (hlock : s.output_locks target = some lock) (hfree : ∀ job ∈ s.jobs, lock ∉ job.locks) :
    LockInv { s with output_locks := update s.output_locks target none } where
  sessions := h.sessions
  owned := h.owned
  registered := by
    intro job hj
    refine registered_of_keep (h.registered job hj) fun p held hheld hp => ?_
    have hne : p ≠ target := by
      rintro rfl
      obtain rfl : lock = held := some.inj (hlock.symm.trans hp)
      exact hfree job hj hheld
    simpa [update_of_ne hne] using hp

/-- **Every step keeps one lock for a target and one owner for a lock.** -/
theorem LockInv.step (h : LockInv s) {action : LockAction} (hstep : s.step action = some s') :
    LockInv s' := by
  cases action with
  | start session_id stages => exact h.start hstep
  | acquire session_id => exact h.acquire hstep
  | cancel session_id =>
    obtain ⟨job, hjob, hrelease⟩ := bind_eq_some_iff.mp hstep
    split_ifs at hrelease
    cases hrelease
    exact h.release (job?_eq_some hjob).1
  | work session_id =>
    obtain ⟨job, -, hwork⟩ := bind_eq_some_iff.mp hstep
    split_ifs at hwork
    cases hwork
    exact h
  | finish session_id =>
    obtain ⟨job, hjob, hrelease⟩ := bind_eq_some_iff.mp hstep
    split_ifs at hrelease
    cases hrelease
    exact h.release (job?_eq_some hjob).1
  | collect target =>
    obtain ⟨lock, hlock, hcollect⟩ := bind_eq_some_iff.mp hstep
    split_ifs at hcollect with hfree
    cases hcollect
    exact h.collect hlock hfree

theorem lockInv_init : LockInv LockState.init where
  sessions := List.Pairwise.nil
  registered := by simp [LockState.init]
  owned := by simp [LockState.init]

end Steps

/-! ## Exclusive outputs -/

section Exclusive

variable {s s' : LockState} {session_id : String}

theorem OutputsExclusive.cons {job : LockedJob} {jobs : List LockedJob} (hjobs : s.jobs = jobs)
    (h : OutputsExclusive s) (hnew : job.Holding → job.targets = []) (hjobs' : s'.jobs = job :: jobs) :
    OutputsExclusive s' := by
  intro a ha b hb hne hah hbh p hp q hq
  rw [hjobs', mem_cons] at ha hb
  rcases ha with rfl | ha
  · simp [hnew hah] at hp
  · rcases hb with rfl | hb
    · simp [hnew hbh] at hq
    · exact h a (hjobs ▸ ha) b (hjobs ▸ hb) hne hah hbh p hp q hq

theorem OutputsExclusive.subset (h : OutputsExclusive s) (hsub : s'.jobs ⊆ s.jobs) :
    OutputsExclusive s' :=
  fun a ha b hb => h a (hsub ha) b (hsub hb)

theorem OutputsExclusive.start (h : OutputsExclusive s) {stages : List OutputStage}
    (hstep : s.start session_id stages = some s') : OutputsExclusive s' := by
  unfold LockState.start at hstep
  split at hstep
  · obtain ⟨hlocks, -, hjobs, -⟩ := outputExecutionLocks_spec s (sortedTargets stages)
    cases hstep
    refine h.cons rfl (fun hholding => ?_) (congrArg _ hjobs)
    have hnil : (outputExecutionLocks s (sortedTargets stages)).2 = [] :=
      length_eq_zero_iff.mp hholding.symm
    rw [hnil] at hlocks
    exact map_eq_nil_iff.mp hlocks.symm
  · cases hstep

/-- **An acquisition keeps targets from overlapping exactly when it is clear of nested targets**:
equal targets have the same lock. -/
theorem outputsExclusive_acquire_iff (hinv : LockInv s) (h : OutputsExclusive s)
    (hstep : s.acquire session_id = some s') :
    OutputsExclusive s' ↔ ClearOfNested s (.acquire session_id) := by
  have hinv' := hinv.acquire hstep
  obtain ⟨job, lock, hj, hsession, -, -, hjobs, -, -⟩ := acquire_eq_some hstep
  have hmem : ∀ {other}, other ∈ s.jobs → other.advance session_id ∈ s'.jobs :=
    fun ho => hjobs ▸ mem_map_of_mem ho
  have hadvance : ∀ {job : LockedJob}, job.session_id = session_id →
      ((job.advance session_id).Holding ↔ job.acquired + 1 = job.locks.length) := by
    intro job hs
    simp [LockedJob.Holding, LockedJob.advance, hs]
  constructor
  · intro h' job hj hs hlast other ho hne hoh p hp q hq _
    have hoh' : (other.advance session_id).Holding := (advance_of_ne hne).symm ▸ hoh
    exact h' _ (hmem hj) _ (hmem ho) (by simpa [hs] using hne.symm) ((hadvance hs).mpr hlast) hoh' p
      (by simpa using hp) q (by simpa using hq)
  · intro hclear a ha b hb hne hah hbh p hp q hq
    have hpq : p ≠ q := hinv'.targets_ne ha hb hne hah hbh hp hq
    obtain ⟨a, has, rfl⟩ := mem_map.mp (hjobs ▸ ha)
    obtain ⟨b, hbs, rfl⟩ := mem_map.mp (hjobs ▸ hb)
    simp only [advance_session_id, advance_targets] at hne hp hq
    -- at most one of the two jobs is the one that acquires
    by_cases hasame : a.session_id = session_id
    · have hbother : b.session_id ≠ session_id := fun hbsame => hne (hasame.trans hbsame.symm)
      rw [advance_of_ne hbother] at hbh
      exact hclear a has hasame ((hadvance hasame).mp hah) b hbs hbother hbh p hp q hq hpq
    · rw [advance_of_ne hasame] at hah
      by_cases hbsame : b.session_id = session_id
      · have hclear' := hclear b hbs hbsame ((hadvance hbsame).mp hbh) a has hasame hah q hq p hp
          hpq.symm
        exact fun hoverlap => hclear' (overlap_comm.mp hoverlap)
      · rw [advance_of_ne hbsame] at hbh
        exact h a has b hbs hne hah hbh p hp q hq

/-- A step breaks the exclusiveness of the outputs exactly when it is an acquisition that is not
clear of nested targets. -/
theorem outputsExclusive_step_iff (hinv : LockInv s) (h : OutputsExclusive s) {action : LockAction}
    (hstep : s.step action = some s') : OutputsExclusive s' ↔ ClearOfNested s action := by
  cases action with
  | start session_id stages => exact iff_of_true (h.start hstep) trivial
  | acquire session_id => exact outputsExclusive_acquire_iff hinv h hstep
  | cancel session_id =>
    obtain ⟨job, -, hrelease⟩ := bind_eq_some_iff.mp hstep
    split_ifs at hrelease
    cases hrelease
    exact iff_of_true (h.subset (filter_subset_self _)) trivial
  | work session_id =>
    obtain ⟨job, -, hwork⟩ := bind_eq_some_iff.mp hstep
    split_ifs at hwork
    cases hwork
    exact iff_of_true h trivial
  | finish session_id =>
    obtain ⟨job, -, hrelease⟩ := bind_eq_some_iff.mp hstep
    split_ifs at hrelease
    cases hrelease
    exact iff_of_true (h.subset (filter_subset_self _)) trivial
  | collect target =>
    obtain ⟨lock, -, hcollect⟩ := bind_eq_some_iff.mp hstep
    split_ifs at hcollect
    cases hcollect
    exact iff_of_true (h.subset (List.Subset.refl _)) trivial

/-- **When outputs are exclusive**: in every interleaving of any number of jobs, exactly when no
job takes its last lock while another holds a target properly above or below one of its own. -/
theorem outputsExclusive_iff (actions : List LockAction) :
    Run.Always LockState.step LockState.init actions OutputsExclusive ↔
      Run.EachStep LockState.step LockState.init actions ClearOfNested :=
  Run.always_iff_eachStep lockInv_init (fun _ _ _ hinv hstep => hinv.step hstep)
    (by simp [OutputsExclusive, LockState.init])
    fun _ _ _ hinv h hstep => outputsExclusive_step_iff hinv h hstep

def stageAtTarget (target : Path) : OutputStage :=
  ⟨"path", ["job", "outputs", "0", "out"], target, "out", ["job", "backups", "0"]⟩

/-- One job publishes at a directory and another at a file in it: both hold their locks. -/
theorem not_always_outputsExclusive :
    ¬ Run.Always LockState.step LockState.init
      [.start "a" [stageAtTarget ["w", "out"]], .acquire "a",
        .start "b" [stageAtTarget ["w", "out", "board.gbr"]], .acquire "b"] OutputsExclusive := by
  intro h
  have hlast := h _ (prefix_refl _) _ rfl
  refine hlast ⟨"b", [["w", "out", "board.gbr"]], [1], 1⟩ (by decide) ⟨"a", [["w", "out"]], [0], 1⟩
    (by decide) (by decide) rfl rfl _ (mem_singleton_self _) _ (mem_singleton_self _) ?_
  decide

end Exclusive

end ZapTrace
