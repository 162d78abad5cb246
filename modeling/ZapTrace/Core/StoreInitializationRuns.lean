import Mathlib.Data.List.Nodup
import ZapTrace.Core.StoreInitialization

/-!
# Interleavings of the creation of the state store

Of the processes that read version 0, one at most gets through: the row of the migration is there when
another one comes to insert it. So all processes get through exactly when no process reads version 0 after
another has read the version.

## Main results

* `Inv.step`: a statement keeps the invariant
* `exists_step`: unless all processes are through or have failed, one of them can go on
* `initialize_succeeds_iff`: which interleavings all processes get through
-/

namespace ZapTrace.StoreInitialization

open Store List Option Function Opening

open Function (update)
open Statement

variable {ι : Type} [DecidableEq ι] {checksum : ℕ → String}

/-- No migration has been committed. -/
def Unmigrated (db : Database) : Prop := db.migrations = [] ∧ db.user_version = 0

/-- The migration has been committed. -/
structure Migrated (checksum : ℕ → String) (db : Database) : Prop where
  migrations : db.migrations = [(1, checksum 1)]
  version : db.user_version = 1
  tables : ∀ name ∈ schemaNames, name ∈ db.tables

/-- What comes after the migration. -/
def epilogue : List Statement := [.readMigrations, .quickCheck]

/-- What comes after the row of the migration. -/
def afterInsert : List Statement := .setVersion 1 :: .commit :: epilogue

theorem initializeFrom_zero : initializeFrom checksum 0 =
    .journalMode :: .synchronous :: .beginImmediate :: .commit :: (schemaNames.map .createIfNotExists ++
      .insertMigration 1 (checksum 1) :: afterInsert) := rfl

theorem initializeFrom_one : initializeFrom checksum 1 = .journalMode :: .synchronous :: epilogue := rfl

/-- The process has no transaction. -/
def Unlocked (st : Store ι) (p : ι) : Prop := ∀ db, st.writer ≠ some (p, db)

/-- Where a process stands, and what it knows of the store there. -/
inductive Position (checksum : ℕ → String) (st : Store ι) (p : ι) : List Statement → Prop
  | unread (hlock : Unlocked st p) : Position checksum st p [.readVersion]
  | settings (todo : List Statement) (hlock : Unlocked st p)
      (htodo : todo ∈ [[journalMode, synchronous, beginImmediate], [synchronous, beginImmediate], [beginImmediate]]) :
      Position checksum st p (todo ++ .commit :: (schemaNames.map .createIfNotExists ++
        .insertMigration 1 (checksum 1) :: afterInsert))
  | begun (hlock : st.writer = some (p, st.committed)) :
      Position checksum st p (.commit :: (schemaNames.map .createIfNotExists ++
        .insertMigration 1 (checksum 1) :: afterInsert))
  | creating {names : List String} (hlock : Unlocked st p) (hnames : names <:+ schemaNames)
      (hcreated : ∀ name ∈ schemaNames, name ∉ names → name ∈ st.committed.tables) :
      Position checksum st p (names.map .createIfNotExists ++ .insertMigration 1 (checksum 1) :: afterInsert)
  | inserted (hlock : st.writer = some (p, { st.committed with migrations := [(1, checksum 1)] }))
      (hcommitted : Unmigrated st.committed) (htables : ∀ name ∈ schemaNames, name ∈ st.committed.tables) :
      Position checksum st p afterInsert
  | versioned (hlock : st.writer = some (p, { st.committed with migrations := [(1, checksum 1)], user_version := 1 }))
      (hcommitted : Unmigrated st.committed) (htables : ∀ name ∈ schemaNames, name ∈ st.committed.tables) :
      Position checksum st p (.commit :: epilogue)
  | migrated {todo : List Statement} (hlock : Unlocked st p) (hmigrated : Migrated checksum st.committed)
      (htodo : todo <:+ .journalMode :: .synchronous :: epilogue) : Position checksum st p todo

/-- What is known of a process. One that has failed has found the migration committed. -/
def Standing (checksum : ℕ → String) (st : Store ι) (p : ι) : Process → Prop
  | .running todo => Position checksum st p todo
  | .failed _ => Unlocked st p ∧ Migrated checksum st.committed

/-- Every process has a position, and the database is unmigrated or migrated. -/
structure Inv (checksum : ℕ → String) (s : Opening ι) : Prop where
  standing : ∀ p, Standing checksum s.store p (s.procs p)
  contents : Unmigrated s.store.committed ∨ Migrated checksum s.store.committed
  tables : s.store.committed.tables.Nodup ∧ ∀ name ∈ s.store.committed.tables, name ∈ schemaNames

/-- What a statement of a process leaves to the others. -/
structure Frame (checksum : ℕ → String) (p : ι) (st st' : Store ι) : Prop where
  tables : ∀ name ∈ st.committed.tables, name ∈ st'.committed.tables
  migrated : Migrated checksum st.committed → Migrated checksum st'.committed
  locked : ∀ q, q ≠ p → ∀ db, st.writer = some (q, db) → st' = st
  unlocked : ∀ q, q ≠ p → Unlocked st q → Unlocked st' q

omit [DecidableEq ι] in
theorem Frame.refl (p : ι) (st : Store ι) : Frame checksum p st st :=
  ⟨fun _ h => h, id, fun _ _ _ _ => rfl, fun _ _ h => h⟩

omit [DecidableEq ι] in
variable {proc : Process}

theorem Frame.standing {p q : ι} {st st' : Store ι} (h : Frame checksum p st st') (hq : q ≠ p)
    (hproc : Standing checksum st q proc) : Standing checksum st' q proc := by
  cases proc with
  | failed e => exact ⟨h.unlocked q hq hproc.1, h.migrated hproc.2⟩
  | running todo =>
    cases hproc with
    | unread hlock => exact .unread (h.unlocked q hq hlock)
    | settings todo hlock htodo => exact .settings todo (h.unlocked q hq hlock) htodo
    | begun hlock =>
      obtain rfl := h.locked q hq _ hlock
      exact .begun hlock
    | creating hlock hnames hcreated =>
      exact .creating (h.unlocked q hq hlock) hnames fun name hname hrest => h.tables name (hcreated name hname hrest)
    | inserted hlock hcommitted htables =>
      obtain rfl := h.locked q hq _ hlock
      exact .inserted hlock hcommitted htables
    | versioned hlock hcommitted htables =>
      obtain rfl := h.locked q hq _ hlock
      exact .versioned hlock hcommitted htables
    | migrated hlock hmigrated htodo => exact .migrated (h.unlocked q hq hlock) (h.migrated hmigrated) htodo

/-! ## Statements -/

section

variable {st st' : Store ι} {p : ι} {db : Database}

theorem Store.view_of_unlocked (h : Unlocked st p) : st.view p = st.committed := by
  unfold view
  split
  · rename_i q db hwriter
    rw [if_neg]
    rintro rfl
    exact h db hwriter
  · rfl

theorem Store.view_locked (st : Store ι) (p : ι) (db : Database) :
    ({ st with writer := some (p, db) } : Store ι).view p = db :=
  if_pos rfl

theorem Store.begin_of_unlocked (h : Unlocked st p) (hbegin : st.begin p = some st') :
    st.writer = none ∧ st' = { st with writer := some (p, st.committed) } := by
  unfold begin at hbegin
  split at hbegin
  · rename_i hwriter
    exact ⟨hwriter, (some.inj hbegin).symm⟩
  · rename_i q db hwriter
    split at hbegin
    · rename_i hq
      subst hq
      exact absurd hwriter (h db)
    · cases hbegin

theorem Store.write_of_unlocked {f : Database → Database} (h : Unlocked st p) (hwrite : st.write p f = some st') :
    st.writer = none ∧ st' = { st with committed := f st.committed } := by
  unfold write at hwrite
  split at hwrite
  · rename_i hwriter
    exact ⟨hwriter, (some.inj hwrite).symm⟩
  · rename_i q db hwriter
    split at hwrite
    · rename_i hq
      subst hq
      exact absurd hwriter (h db)
    · cases hwrite

theorem Store.write_of_locked (f : Database → Database) (h : st.writer = some (p, db)) :
    st.write p f = some { st with writer := some (p, f db) } := by
  simp [write, h]

theorem Store.commit_of_locked (h : st.writer = some (p, db)) : st.commit p = { committed := db } := by
  simp [commit, h]

theorem Store.rollback_of_unlocked (h : Unlocked st p) : st.rollback p = st := by
  unfold rollback
  split
  · rfl
  · rename_i q db hwriter
    rw [if_neg]
    rintro rfl
    exact h db hwriter

end

/-- What a statement leaves: the position of its process, and the rest of the invariant. -/
structure Leaves (checksum : ℕ → String) (p : ι) (st st' : Store ι) (proc : Process) : Prop where
  standing : Standing checksum st' p proc
  frame : Frame checksum p st st'
  contents : Unmigrated st'.committed ∨ Migrated checksum st'.committed
  tables : st'.committed.tables.Nodup ∧ ∀ name ∈ st'.committed.tables, name ∈ schemaNames
  migrates : Unmigrated st.committed → Migrated checksum st'.committed → proc = .running epilogue

theorem Unmigrated.not_migrated {db : Database} (h : Unmigrated db) : ¬ Migrated checksum db := fun hmigrated => by
  have := h.1
  rw [hmigrated.migrations] at this
  cases this

omit [DecidableEq ι] in
variable {p : ι}

theorem Leaves.of_committed {st st' : Store ι} (hcommitted : st'.committed = st.committed)
    (hlock : ∀ q, q ≠ p → Unlocked st q ∧ Unlocked st' q) (hstanding : Standing checksum st' p proc)
    (hcontents : Unmigrated st.committed ∨ Migrated checksum st.committed)
    (htables : st.committed.tables.Nodup ∧ ∀ name ∈ st.committed.tables, name ∈ schemaNames) :
    Leaves checksum p st st' proc where
  standing := hstanding
  frame := {
    tables := fun name hname => by rw [hcommitted]; exact hname
    migrated := fun h => by rw [hcommitted]; exact h
    locked := fun q hq db hwriter => absurd hwriter ((hlock q hq).1 db)
    unlocked := fun q hq _ => (hlock q hq).2 }
  contents := by rw [hcommitted]; exact hcontents
  tables := by rw [hcommitted]; exact htables
  migrates := fun h hmigrated => absurd (hcommitted ▸ hmigrated) h.not_migrated

omit [DecidableEq ι] in
variable {st : Store ι}

theorem Leaves.same (hstanding : Standing checksum st p proc)
    (hcontents : Unmigrated st.committed ∨ Migrated checksum st.committed)
    (htables : st.committed.tables.Nodup ∧ ∀ name ∈ st.committed.tables, name ∈ schemaNames) :
    Leaves checksum p st st proc :=
  ⟨hstanding, .refl p st, hcontents, htables, fun h hmigrated => absurd hmigrated h.not_migrated⟩

/-- What a statement leads to keeps what is known. It raises only when it inserts the row of the migration. -/
def Result.Keeps (checksum : ℕ → String) (p : ι) (st : Store ι) (stmt : Statement) (rest : List Statement) :
    Result ι → Prop
  | .ok (st', next) => Leaves checksum p st st' (.running (next ++ rest))
  | .error e => stmt = .insertMigration 1 (checksum 1) ∧ Leaves checksum p st (st.rollback p) (.failed e)

variable {stmt : Statement} {rest : List Statement}

theorem keeps_execute {r : Result ι} (hpos : Position checksum st p (stmt :: rest))
    (hcontents : Unmigrated st.committed ∨ Migrated checksum st.committed)
    (htables : st.committed.tables.Nodup ∧ ∀ name ∈ st.committed.tables, name ∈ schemaNames)
    (h : execute checksum st p stmt = some r) : Result.Keeps checksum p st stmt rest r := by
  generalize htodo : stmt :: rest = todo at hpos
  cases hpos with
  | unread hlock =>
    obtain ⟨rfl, rfl⟩ := cons.inj htodo
    simp only [execute, view_of_unlocked hlock] at h
    rcases hcontents with hunmigrated | hmigrated
    · rw [hunmigrated.2, if_neg (by decide)] at h
      cases h
      unfold Result.Keeps
      rw [initializeFrom_zero]
      exact .same (.settings [journalMode, synchronous, beginImmediate] hlock (by simp))
        (.inl hunmigrated) htables
    · rw [hmigrated.version, if_neg (by decide)] at h
      cases h
      unfold Result.Keeps
      rw [initializeFrom_one]
      exact .same (.migrated hlock hmigrated suffix_rfl) (.inr hmigrated) htables
  | settings todo hlock hfirst =>
    simp only [mem_cons, not_mem_nil, or_false] at hfirst
    rcases hfirst with rfl | rfl | rfl
    · obtain ⟨rfl, rfl⟩ := cons.inj htodo
      cases h
      exact .same (.settings [synchronous, beginImmediate] hlock (by simp)) hcontents htables
    · obtain ⟨rfl, rfl⟩ := cons.inj htodo
      cases h
      exact .same (.settings [beginImmediate] hlock (by simp)) hcontents htables
    · obtain ⟨rfl, rfl⟩ := cons.inj htodo
      obtain ⟨st', hbegin, rfl⟩ := map_eq_some_iff.mp h
      obtain ⟨hnone, rfl⟩ := begin_of_unlocked hlock hbegin
      refine .of_committed rfl (fun q hq => ⟨fun db hdb => ?_, fun db hdb => ?_⟩) (.begun rfl) hcontents htables
      · rw [hnone] at hdb
        cases hdb
      · exact hq (congrArg Prod.fst (some.inj hdb)).symm
  | begun hlock =>
    obtain ⟨rfl, rfl⟩ := cons.inj htodo
    cases h
    unfold Result.Keeps
    rw [commit_of_locked hlock]
    refine .of_committed rfl (fun q hq => ⟨fun db hdb => ?_, fun db hdb => ?_⟩)
      (.creating (fun db hdb => ?_) suffix_rfl fun name hname hrest => absurd hname hrest) hcontents htables
    · rw [hlock] at hdb
      exact hq (congrArg Prod.fst (some.inj hdb)).symm
    · cases hdb
    · cases hdb
  | creating hlock hnames hcreated =>
    rename_i names
    cases names with
    | nil =>
      obtain ⟨rfl, rfl⟩ := cons.inj htodo
      have hall : ∀ name ∈ schemaNames, name ∈ st.committed.tables :=
        fun name hname => hcreated name hname not_mem_nil
      obtain ⟨st', hbegin, hinsert⟩ := bind_eq_some_iff.mp h
      obtain ⟨hnone, rfl⟩ := begin_of_unlocked hlock hbegin
      have hlocked : ∀ q, q ≠ p → Unlocked st q := fun q _ db hdb => by
        rw [hnone] at hdb
        cases hdb
      rw [view_locked st p st.committed, if_neg (not_not.mpr (hall _ (by decide)))] at hinsert
      rcases hcontents with hunmigrated | hmigrated
      · rw [if_neg (by simp [hunmigrated.1]), write_of_locked _ rfl] at hinsert
        cases hinsert
        refine .of_committed rfl (fun q hq => ⟨hlocked q hq, fun db hdb => ?_⟩) (.inserted ?_ hunmigrated hall)
          (.inl hunmigrated) htables
        · exact hq (congrArg Prod.fst (some.inj hdb)).symm
        · rw [hunmigrated.1]
          rfl
      · -- the row is there already
        rw [if_pos (by simp [hmigrated.migrations])] at hinsert
        cases hinsert
        refine ⟨rfl, ?_⟩
        rw [rollback_of_unlocked hlock]
        exact .same ⟨hlock, hmigrated⟩ (.inr hmigrated) htables
    | cons name names =>
      obtain ⟨rfl, rfl⟩ := cons.inj htodo
      have hrest : names <:+ schemaNames := (suffix_cons name names).trans hnames
      simp only [execute, view_of_unlocked hlock] at h
      split at h
      · rename_i hthere
        cases h
        refine .same (.creating hlock hrest fun other hother hnot => ?_) hcontents htables
        by_cases hsame : other = name
        · rw [hsame]
          exact hthere
        · exact hcreated other hother (by simp [hsame, hnot])
      · rename_i hthere
        obtain ⟨st', hwrite, rfl⟩ := map_eq_some_iff.mp h
        obtain ⟨hnone, rfl⟩ := write_of_unlocked hlock hwrite
        refine ⟨.creating hlock hrest fun other hother hnot => ?_, ⟨?_, ?_, ?_, fun q _ hq => hq⟩, ?_, ⟨?_, ?_⟩, ?_⟩
        · by_cases hsame : other = name
          · simp [hsame]
          · exact mem_append_left _ (hcreated other hother (by simp [hsame, hnot]))
        · exact fun other hother => mem_append_left _ hother
        · intro hmigrated
          exact ⟨hmigrated.migrations, hmigrated.version,
            fun other hother => mem_append_left _ (hmigrated.tables other hother)⟩
        · intro q _ db hdb
          rw [hnone] at hdb
          cases hdb
        · refine hcontents.imp id fun hmigrated => ?_
          exact ⟨hmigrated.migrations, hmigrated.version,
            fun other hother => mem_append_left _ (hmigrated.tables other hother)⟩
        · exact htables.1.append (nodup_cons.mpr ⟨not_mem_nil, nodup_nil⟩)
            (disjoint_singleton.mpr hthere)
        · intro other hother
          rcases mem_append.mp hother with hold | hnew
          · exact htables.2 other hold
          · rw [mem_singleton.mp hnew]
            exact hnames.subset mem_cons_self
        · intro hunmigrated hmigrated
          have hrows := hmigrated.migrations
          rw [show _ = st.committed.migrations from rfl, hunmigrated.1] at hrows
          cases hrows
  | inserted hlock hcommitted hall =>
    obtain ⟨rfl, rfl⟩ := cons.inj htodo
    simp only [execute, write_of_locked _ hlock] at h
    cases h
    refine .of_committed rfl (fun q hq => ⟨fun db hdb => ?_, fun db hdb => ?_⟩) (.versioned rfl hcommitted hall)
      hcontents htables
    · rw [hlock] at hdb
      exact hq (congrArg Prod.fst (some.inj hdb)).symm
    · exact hq (congrArg Prod.fst (some.inj hdb)).symm
  | versioned hlock hcommitted hall =>
    obtain ⟨rfl, rfl⟩ := cons.inj htodo
    cases h
    unfold Result.Keeps
    rw [commit_of_locked hlock]
    have hmigrated : Migrated checksum { st.committed with migrations := [(1, checksum 1)], user_version := 1 } :=
      ⟨rfl, rfl, hall⟩
    refine ⟨.migrated (fun db hdb => ?_) hmigrated (suffix_append [journalMode, synchronous] epilogue),
      ⟨fun name hname => hname, fun _ => hmigrated, fun q hq db hdb => ?_, fun q _ _ db hdb => ?_⟩, .inr hmigrated, htables,
      fun _ _ => rfl⟩
    · cases hdb
    · rw [hlock] at hdb
      exact absurd (congrArg Prod.fst (some.inj hdb)).symm hq
    · cases hdb
  | migrated hlock hmigrated hsuffix =>
    subst htodo
    have hrest : Position checksum st p rest :=
      .migrated hlock hmigrated ((suffix_cons stmt rest).trans hsuffix)
    have hstmt : stmt ∈ [journalMode, synchronous, readMigrations, quickCheck] := hsuffix.subset mem_cons_self
    simp only [mem_cons, not_mem_nil, or_false] at hstmt
    rcases hstmt with rfl | rfl | rfl | rfl
    · cases h
      exact .same hrest hcontents htables
    · cases h
      exact .same hrest hcontents htables
    · simp only [execute, view_of_unlocked hlock] at h
      rw [if_neg (not_not.mpr (hmigrated.tables _ (by decide))), if_pos (by simp [hmigrated.migrations, SCHEMA_VERSION])]
        at h
      cases h
      exact .same hrest hcontents htables
    · cases h
      exact .same hrest hcontents htables

/-! ## Steps -/

variable {s s' : Opening ι}

theorem Opening.step_cases (h : s.step checksum p = some s') :
    ∃ stmt rest, s.procs p = .running (stmt :: rest) ∧
      ((∃ st' next, execute checksum s.store p stmt = some (.ok (st', next)) ∧
        s' = { store := st', procs := update s.procs p (.running (next ++ rest)) }) ∨
      ∃ e, execute checksum s.store p stmt = some (.error e) ∧
        s' = { store := s.store.rollback p, procs := update s.procs p (.failed e) }) := by
  unfold step at h
  split at h
  · cases h
  · cases h
  · rename_i stmt rest hproc
    obtain ⟨r, hr, rfl⟩ := map_eq_some_iff.mp h
    refine ⟨stmt, rest, hproc, ?_⟩
    rcases r with e | ⟨st', next⟩
    · exact .inr ⟨e, hr, rfl⟩
    · exact .inl ⟨st', next, hr, rfl⟩

theorem Inv.leaves (h : Inv checksum s) (hstep : s.step checksum p = some s') :
    ∃ proc, s'.procs = update s.procs p proc ∧ Leaves checksum p s.store s'.store proc := by
  obtain ⟨stmt, rest, hproc, hcases⟩ := step_cases hstep
  have hpos : Position checksum s.store p (stmt :: rest) := by
    have := h.standing p
    rwa [hproc] at this
  rcases hcases with ⟨st', next, hexecute, rfl⟩ | ⟨e, hexecute, rfl⟩
  · exact ⟨_, rfl, keeps_execute hpos h.contents h.tables hexecute⟩
  · exact ⟨_, rfl, (keeps_execute hpos h.contents h.tables hexecute).2⟩

theorem Inv.step (h : Inv checksum s) (hstep : s.step checksum p = some s') : Inv checksum s' := by
  obtain ⟨proc, hprocs, hleaves⟩ := h.leaves hstep
  refine ⟨fun q => ?_, hleaves.contents, hleaves.tables⟩
  rw [hprocs]
  by_cases hq : q = p
  · rw [hq, update_self]
    exact hleaves.standing
  · rw [update_of_ne hq]
    exact hleaves.frame.standing hq (h.standing q)

omit [DecidableEq ι] in
theorem inv_fresh : Inv checksum ({} : Opening ι) where
  standing _ := .unread nofun
  contents := .inl ⟨rfl, rfl⟩
  tables := ⟨nodup_nil, fun _ h => absurd h not_mem_nil⟩

theorem Inv.exec {acts : List ι} (h : Inv checksum s) (hrun : Run.exec (Opening.step checksum) s acts = some s') :
    Inv checksum s' :=
  Run.exec_preserves (fun _ _ _ hs hstep => hs.step hstep) h hrun

theorem execute_ne_none (hnone : st.writer = none) (p : ι) (stmt : Statement) : execute checksum st p stmt ≠ none := by
  cases stmt with
  | readVersion | createIfNotExists =>
    simp only [execute, Store.write, hnone]
    split <;> simp
  | readMigrations =>
    simp only [execute]
    split
    · simp
    · split <;> simp
  | journalMode | synchronous | commit | quickCheck => simp [execute]
  | beginImmediate => simp [execute, begin, hnone]
  | setVersion version => simp [execute, Store.write, hnone]
  | insertMigration version sum =>
    simp only [execute, begin, hnone, bind_some]
    split
    · simp
    · split <;> simp [Store.write]

/-- Where no process can go on, all are through or have failed. -/
theorem Inv.finished {s : Opening ι} (h : Inv checksum s) (hmax : ∀ p, s.step checksum p = none) (p : ι) :
    s.procs p = .running [] ∨ ∃ e, s.procs p = .failed e := by
  have hstuck : ∀ q stmt rest, s.procs q = .running (stmt :: rest) → execute checksum s.store q stmt = none := by
    intro q stmt rest hq
    have hstep := hmax q
    rw [Opening.step, hq] at hstep
    exact map_eq_none_iff.mp hstep
  have hnone : s.store.writer = none := by
    cases hwriter : s.store.writer with
    | none => rfl
    | some lock =>
      obtain ⟨q, db⟩ := lock
      have hq := h.standing q
      cases hproc : s.procs q with
      | failed e =>
        rw [hproc] at hq
        exact absurd hwriter (hq.1 db)
      | running todo =>
        rw [hproc] at hq
        cases hq with
        | unread hlock | settings _ hlock | creating hlock | migrated hlock => exact absurd hwriter (hlock db)
        | begun hlock => exact absurd (hstuck q _ _ hproc) (by simp [execute])
        | inserted hlock => exact absurd (hstuck q _ _ hproc) (by simp [execute, write_of_locked _ hlock])
        | versioned hlock => exact absurd (hstuck q _ _ hproc) (by simp [execute])
  cases hproc : s.procs p with
  | failed e => exact .inr ⟨e, rfl⟩
  | running todo =>
    cases todo with
    | nil => exact .inl rfl
    | cons stmt rest => exact absurd (hstuck p stmt rest hproc) (execute_ne_none hnone p stmt)

/-! ## Runs where version 0 is read alone -/

/-- The process has read version 0, and its migration is not committed. -/
def Migrating (proc : Process) : Prop := ∃ todo, proc = .running todo ∧ .commit ∈ todo

/-- No process has failed, and one that migrates is the only one that has read the version. -/
structure Alone (s : Opening ι) : Prop where
  none_failed : ∀ p e, s.procs p ≠ .failed e
  migrating : ∀ p, Migrating (s.procs p) →
    Unmigrated s.store.committed ∧ ∀ q, q ≠ p → s.procs q = .running [.readVersion]

theorem not_migrating_unread : ¬ Migrating (.running [.readVersion]) := by
  rintro ⟨todo, htodo, hmem⟩
  cases htodo
  simp at hmem

theorem rollback_committed (st : Store ι) (p : ι) : (st.rollback p).committed = st.committed := by
  unfold rollback
  split
  · rfl
  · split <;> rfl

/-- Only the reading of the version puts statements before the others. -/
theorem execute_next {st st' : Store ι} {next : List Statement}
    (h : execute checksum st p stmt = some (.ok (st', next))) :
    next = [] ∨ stmt = .readVersion ∧ st' = st ∧ next = initializeFrom checksum (st.view p).user_version := by
  cases stmt with
  | readVersion =>
    simp only [execute] at h
    split at h
    · cases h
    · cases h
      exact .inr ⟨rfl, rfl, rfl⟩
  | journalMode | synchronous | quickCheck | commit =>
    cases h
    exact .inl rfl
  | beginImmediate | setVersion =>
    obtain ⟨_, _, h⟩ := map_eq_some_iff.mp h
    cases h
    exact .inl rfl
  | createIfNotExists name =>
    simp only [execute] at h
    split at h
    · cases h
      exact .inl rfl
    · obtain ⟨_, _, h⟩ := map_eq_some_iff.mp h
      cases h
      exact .inl rfl
  | insertMigration version sum =>
    obtain ⟨_, _, h⟩ := bind_eq_some_iff.mp h
    split at h
    · cases h
    · split at h
      · cases h
      · obtain ⟨_, _, h⟩ := map_eq_some_iff.mp h
        cases h
        exact .inl rfl
  | readMigrations =>
    simp only [execute] at h
    split at h
    · cases h
    · split at h
      · cases h
        exact .inl rfl
      · cases h

omit [DecidableEq ι] in
/-- The version is read once, by the first statement. -/
theorem Position.reads_once (hpos : Position checksum st p (stmt :: rest)) :
    .readVersion ∉ rest ∧ (stmt = .readVersion → rest = [] ∧ Unlocked st p) := by
  generalize htodo : stmt :: rest = todo at hpos
  cases hpos with
  | unread hlock =>
    obtain ⟨rfl, rfl⟩ := cons.inj htodo
    exact ⟨not_mem_nil, fun _ => ⟨rfl, hlock⟩⟩
  | settings todo hlock hfirst =>
    simp only [mem_cons, not_mem_nil, or_false] at hfirst
    rcases hfirst with rfl | rfl | rfl <;> obtain ⟨rfl, rfl⟩ := cons.inj htodo <;>
      exact ⟨by simp [afterInsert, epilogue], nofun⟩
  | begun hlock =>
    obtain ⟨rfl, rfl⟩ := cons.inj htodo
    exact ⟨by simp [afterInsert, epilogue], nofun⟩
  | creating hlock hnames hcreated =>
    rename_i names
    cases names with
    | nil =>
      obtain ⟨rfl, rfl⟩ := cons.inj htodo
      exact ⟨by simp [afterInsert, epilogue], nofun⟩
    | cons name names =>
      obtain ⟨rfl, rfl⟩ := cons.inj htodo
      exact ⟨by simp [afterInsert, epilogue], nofun⟩
  | inserted hlock hcommitted hall =>
    obtain ⟨rfl, rfl⟩ := cons.inj htodo
    exact ⟨by simp [epilogue], nofun⟩
  | versioned hlock hcommitted hall =>
    obtain ⟨rfl, rfl⟩ := cons.inj htodo
    exact ⟨by simp [epilogue], nofun⟩
  | migrated hlock hmigrated hsuffix =>
    rw [← htodo] at hsuffix
    have hnot : .readVersion ∉ stmt :: rest := fun hmem => by
      have := hsuffix.subset hmem
      simp [epilogue] at this
    rw [mem_cons, not_or] at hnot
    exact ⟨hnot.2, fun h => absurd h.symm hnot.1⟩

theorem migrating_before {st st' : Store ι} {rest next : List Statement} (hpos : Position checksum st p (stmt :: rest))
    (hcontents : Unmigrated st.committed ∨ Migrated checksum st.committed)
    (h : execute checksum st p stmt = some (.ok (st', next))) (hmigrating : .commit ∈ next ++ rest) :
    .commit ∈ stmt :: rest ∨ stmt :: rest = [.readVersion] ∧ st.committed.user_version = 0 := by
  rcases execute_next h with rfl | ⟨rfl, rfl, rfl⟩
  · exact .inl (mem_cons_of_mem stmt hmigrating)
  · obtain ⟨rfl, hlock⟩ := hpos.reads_once.2 rfl
    refine .inr ⟨rfl, ?_⟩
    rcases hcontents with hunmigrated | hmigrated
    · exact hunmigrated.2
    · rw [view_of_unlocked hlock, hmigrated.version, initializeFrom_one] at hmigrating
      simp [epilogue] at hmigrating

omit [DecidableEq ι] in
theorem Position.after_insert {sum : String} {version : ℕ}
    (hpos : Position checksum st p (.insertMigration version sum :: rest)) : rest = afterInsert ∧ Unlocked st p := by
  generalize htodo : insertMigration version sum :: rest = todo at hpos
  cases hpos with
  | unread | begun | inserted | versioned => cases htodo
  | settings todo hlock hfirst =>
    simp only [mem_cons, not_mem_nil, or_false] at hfirst
    rcases hfirst with rfl | rfl | rfl <;> cases htodo
  | creating hlock hnames hcreated =>
    rename_i names
    cases names with
    | nil => exact ⟨(cons.inj htodo).2, hlock⟩
    | cons name names => cases htodo
  | migrated hlock hmigrated hsuffix =>
    have := hsuffix.subset (htodo ▸ mem_cons_self)
    simp [epilogue] at this

theorem Opening.step_procs (h : s.step checksum p = some s') (q : ι) (hq : q ≠ p) : s'.procs q = s.procs q := by
  obtain ⟨stmt, rest, -, ⟨st', next, -, rfl⟩ | ⟨e, -, rfl⟩⟩ := step_cases h <;>
    exact update_of_ne hq _ _

/-- A step in which version 0 is read alone, if it is read. -/
theorem Alone.step (halone : Alone s) (h : Inv checksum s) (hreads : ReadsAlone s p)
    (hstep : s.step checksum p = some s') : Alone s' := by
  have hother := step_procs hstep
  obtain ⟨stmt, rest, hproc, hcases⟩ := step_cases hstep
  have hpos : Position checksum s.store p (stmt :: rest) := by
    have := h.standing p
    rwa [hproc] at this
  rcases hcases with ⟨st', next, hexecute, hs'⟩ | ⟨e, hexecute, -⟩
  · have hself : s'.procs p = .running (next ++ rest) := by rw [hs']; exact update_self ..
    have hstore : s'.store = st' := by rw [hs']
    have hleaves : Leaves checksum p s.store st' (.running (next ++ rest)) :=
      keeps_execute hpos h.contents h.tables hexecute
    refine ⟨fun q e hq => ?_, fun q hq => ?_⟩
    · by_cases hqp : q = p
      · rw [hqp, hself] at hq
        cases hq
      · exact halone.none_failed q e ((hother q hqp).symm.trans hq)
    · by_cases hqp : q = p
      · subst hqp
        obtain ⟨todo, htodo, hcommit⟩ := hq
        obtain rfl : next ++ rest = todo := Process.running.inj (hself.symm.trans htodo)
        -- the others have not read the version, and the migration is not committed
        have hothers : Unmigrated s.store.committed ∧ ∀ r, r ≠ q → s.procs r = .running [.readVersion] := by
          rcases migrating_before hpos h.contents hexecute hcommit with hbefore | ⟨hunread, hzero⟩
          · exact halone.migrating q ⟨_, hproc, hbefore⟩
          · rw [hunread] at hproc
            refine ⟨h.contents.resolve_right fun hmigrated => ?_, hreads hproc hzero⟩
            rw [hmigrated.version] at hzero
            cases hzero
        refine ⟨?_, fun r hr => (hother r hr).trans (hothers.2 r hr)⟩
        rw [hstore]
        refine hleaves.contents.resolve_right fun hmigrated => ?_
        rw [Process.running.inj (hleaves.migrates hothers.1 hmigrated)] at hcommit
        simp [epilogue] at hcommit
      · rw [hother q hqp] at hq
        obtain ⟨hunmigrated, hothers⟩ := halone.migrating q hq
        -- the process that steps is one of the others, which reads version 0
        have halso := hreads (hothers p (Ne.symm hqp)) hunmigrated.2 q hqp
        rw [halso] at hq
        exact absurd hq not_migrating_unread
  · exfalso
    obtain ⟨rfl, hfailed⟩ := keeps_execute hpos h.contents h.tables hexecute
    have hcommit : .commit ∈ insertMigration 1 (checksum 1) :: rest := by
      rw [hpos.after_insert.1]
      simp [afterInsert]
    have hmigrated := hfailed.standing.2
    rw [rollback_committed] at hmigrated
    exact (halone.migrating p ⟨_, hproc, hcommit⟩).1.not_migrated hmigrated

omit [DecidableEq ι] in
theorem alone_fresh : Alone ({} : Opening ι) :=
  ⟨fun _ _ => nofun, fun _ h => absurd h not_migrating_unread⟩

/-! ## Two processes that have read version 0 -/

/-- The process has failed, or has the row of the migration still to insert. -/
def Behind (proc : Process) : Prop :=
  (∃ e, proc = .failed e) ∨ ∃ todo sum, proc = .running todo ∧ .insertMigration 1 sum ∈ todo

def HasRead (proc : Process) : Prop := ∀ todo, proc = .running todo → .readVersion ∉ todo

omit [DecidableEq ι] in
theorem behind_of_unmigrated (h : Standing checksum st p proc) (hread : HasRead proc)
    (hunmigrated : Unmigrated st.committed) (hnone : st.writer = none) : Behind proc := by
  cases proc with
  | failed e => exact .inl ⟨e, rfl⟩
  | running todo =>
    cases h with
    | unread => exact absurd (hread _ rfl) (by simp)
    | settings | creating => exact .inr ⟨_, checksum 1, rfl, by simp⟩
    | begun hlock | inserted hlock | versioned hlock =>
      rw [hnone] at hlock
      cases hlock
    | migrated _ hmigrated => exact absurd hmigrated hunmigrated.not_migrated

theorem behind_after (h : Inv checksum s) (hbehind : Behind (s.procs p)) (hstep : s.step checksum p = some s') :
    Behind (s'.procs p) ∨ Unmigrated s.store.committed ∧ s.store.writer = none := by
  obtain ⟨stmt, rest, hproc, hcases⟩ := step_cases hstep
  have hpos : Position checksum s.store p (stmt :: rest) := by
    have := h.standing p
    rwa [hproc] at this
  obtain ⟨todo, sum, htodo, hmem⟩ : ∃ todo sum, s.procs p = .running todo ∧ .insertMigration 1 sum ∈ todo := by
    rcases hbehind with ⟨e, he⟩ | hbehind
    · rw [hproc] at he
      cases he
    · exact hbehind
  obtain rfl : stmt :: rest = todo := Process.running.inj (hproc.symm.trans htodo)
  rcases hcases with ⟨st', next, hexecute, rfl⟩ | ⟨e, -, rfl⟩
  · rcases mem_cons.mp hmem with rfl | hrest
    · -- the insertion has succeeded
      right
      obtain ⟨-, hlock⟩ := hpos.after_insert
      obtain ⟨st₁, hbegin, hinsert⟩ := bind_eq_some_iff.mp hexecute
      obtain ⟨hnone, rfl⟩ := begin_of_unlocked hlock hbegin
      refine ⟨h.contents.resolve_right fun hmigrated => ?_, hnone⟩
      rw [view_locked s.store p s.store.committed,
        if_neg (not_not.mpr (hmigrated.tables _ (by decide))), if_pos (by simp [hmigrated.migrations])] at hinsert
      cases hinsert
    · left
      refine .inr ⟨next ++ rest, sum, update_self .., mem_append_right next hrest⟩
  · exact .inl (.inl ⟨e, update_self ..⟩)

theorem readVersion_not_mem_initializeFrom (version : ℕ) : .readVersion ∉ initializeFrom checksum version := by
  simp [initializeFrom, applyMigration]

theorem hasRead_after (h : Inv checksum s) (hstep : s.step checksum p = some s') : HasRead (s'.procs p) := by
  obtain ⟨stmt, rest, hproc, hcases⟩ := step_cases hstep
  have hpos : Position checksum s.store p (stmt :: rest) := by
    have := h.standing p
    rwa [hproc] at this
  intro todo htodo
  rcases hcases with ⟨st', next, hexecute, rfl⟩ | ⟨e, -, rfl⟩
  · obtain rfl : next ++ rest = todo := Process.running.inj ((update_self ..).symm.trans htodo)
    rw [mem_append, not_or]
    refine ⟨?_, hpos.reads_once.1⟩
    rcases execute_next hexecute with rfl | ⟨-, -, rfl⟩
    · exact not_mem_nil
    · exact readVersion_not_mem_initializeFrom _
  · cases (update_self ..).symm.trans htodo

/-- Of two processes that have read the version, one is behind. -/
structure Racing (p q : ι) (s : Opening ι) : Prop where
  behind : Behind (s.procs p) ∨ Behind (s.procs q)
  first : HasRead (s.procs p)
  second : HasRead (s.procs q)

omit [DecidableEq ι] in
theorem Racing.symm {p q : ι} {s : Opening ι} (h : Racing p q s) : Racing q p s := ⟨h.behind.symm, h.second, h.first⟩

theorem Racing.step_self {p q : ι} (h : Racing p q s) (hinv : Inv checksum s) (hpq : q ≠ p)
    (hstep : s.step checksum p = some s') : Racing p q s' := by
  have hq := step_procs hstep q hpq
  refine ⟨?_, hasRead_after hinv hstep, hq ▸ h.second⟩
  rw [hq]
  rcases h.behind with hbehind | hbehind
  · rcases behind_after hinv hbehind hstep with hafter | ⟨hunmigrated, hnone⟩
    · exact .inl hafter
    · -- the row is inserted now, and the other comes too late
      exact .inr (behind_of_unmigrated (hinv.standing q) h.second hunmigrated hnone)
  · exact .inr hbehind

theorem Racing.step {p q r : ι} (hpq : q ≠ p) (h : Racing p q s ∧ Inv checksum s) (hstep : s.step checksum r = some s') :
    Racing p q s' ∧ Inv checksum s' := by
  refine ⟨?_, h.2.step hstep⟩
  by_cases hrp : r = p
  · subst hrp
    exact h.1.step_self h.2 hpq hstep
  · by_cases hrq : r = q
    · subst hrq
      exact (h.1.symm.step_self h.2 (Ne.symm hpq) hstep).symm
    · have hp := step_procs hstep p (Ne.symm hrp)
      have hq := step_procs hstep q (Ne.symm hrq)
      exact ⟨by rw [hp, hq]; exact h.1.behind, hp ▸ h.1.first, hq ▸ h.1.second⟩

theorem not_behind_through : ¬ Behind (.running []) := by
  rintro (⟨e, he⟩ | ⟨todo, sum, htodo, hmem⟩)
  · cases he
  · cases htodo
    cases hmem

theorem racing_of_read {p q : ι} (h : Inv checksum s) (hproc : s.procs p = .running [.readVersion])
    (hzero : s.store.committed.user_version = 0) (hpq : q ≠ p) (hq : s.procs q ≠ .running [.readVersion])
    (hstep : s.step checksum p = some s') : Racing p q s' := by
  have hother := step_procs hstep q hpq
  refine ⟨.inl ?_, hasRead_after h hstep, ?_⟩
  · have hlock : Unlocked s.store p := by
      have hpos : Position checksum s.store p [.readVersion] := by
        have := h.standing p
        rwa [hproc] at this
      exact (hpos.reads_once.2 rfl).2
    rw [Opening.step, hproc] at hstep
    simp only [execute, view_of_unlocked hlock, hzero, SCHEMA_VERSION, if_neg (by decide : ¬ 0 > 1),
      map_some, initializeFrom_zero] at hstep
    cases hstep
    exact .inr ⟨_, checksum 1, update_self .., by simp⟩
  · rw [hother]
    intro todo htodo hmem
    have hstanding := h.standing q
    rw [htodo] at hstanding
    cases todo with
    | nil => cases hmem
    | cons stmt rest =>
      rcases mem_cons.mp hmem with hhead | hrest
      · rw [(Position.reads_once hstanding).2 hhead.symm |>.1, ← hhead] at htodo
        exact hq htodo
      · exact (Position.reads_once hstanding).1 hrest

/-- In an interleaving that cannot be gone on with, every process that opens the store gets through and the
schema is applied exactly once, if and only if every process that reads version 0 does so before any other
has read the version. -/
theorem initialize_succeeds_iff [Nonempty ι] {acts : List ι} {s : Opening ι}
    (hrun : Run.exec (Opening.step checksum) {} acts = some s) (hmax : ∀ p, s.step checksum p = none) :
    (∀ p, s.procs p = .running []) ∧ Applied checksum s.store ↔
      Run.EachStep (Opening.step checksum) {} acts ReadsAlone := by
  have hinv : Inv checksum s := inv_fresh.exec hrun
  constructor
  · rintro ⟨hthrough, -⟩ pre p hpre s₁ s₂ hs₁ hs₂ hproc hzero q hqp
    by_contra hq
    have hinv₁ : Inv checksum s₁ := inv_fresh.exec hs₁
    have hracing := racing_of_read hinv₁ hproc hzero hqp hq hs₂
    -- one of the two stays behind until the end
    obtain ⟨post, rfl⟩ := hpre
    have hrest : Run.exec (Opening.step checksum) s₂ post = some s := by
      have hprefix : Run.exec (Opening.step checksum) {} (pre ++ [p]) = some s₂ :=
        Run.exec_concat.mpr ⟨s₁, hs₁, hs₂⟩
      rw [Run.exec_append, hprefix] at hrun
      exact hrun
    have hend := (Run.exec_preserves (P := fun t => Racing p q t ∧ Inv checksum t)
      (fun _ _ _ ht hstep => Racing.step hqp ht hstep) ⟨hracing, hinv₁.step hs₂⟩ hrest).1
    rcases hend.behind with hbehind | hbehind
    · exact not_behind_through (hthrough p ▸ hbehind)
    · exact not_behind_through (hthrough q ▸ hbehind)
  · intro hreads
    have halone := (Run.always_of_eachStep (I := fun t => Alone t ∧ Inv checksum t) ⟨alone_fresh, inv_fresh⟩
      (fun _ _ _ ht hC hstep => ⟨ht.1.step ht.2 hC hstep, ht.2.step hstep⟩) hreads acts prefix_rfl s hrun).1
    have hthrough : ∀ p, s.procs p = .running [] := fun p =>
      (hinv.finished hmax p).resolve_right fun ⟨e, he⟩ => halone.none_failed p e he
    refine ⟨hthrough, ?_⟩
    have hdone : ∀ p, Migrated checksum s.store.committed ∧ Unlocked s.store p := by
      intro p
      have hstanding := hinv.standing p
      rw [hthrough p] at hstanding
      generalize htodo : ([] : List Statement) = todo at hstanding
      cases hstanding with
      | migrated hlock hmigrated => exact ⟨hmigrated, hlock⟩
      | unread | begun | inserted | versioned => cases htodo
      | settings todo hlock hfirst => simp at htodo
      | creating => simp at htodo
    obtain ⟨p⟩ := ‹Nonempty ι›
    have hmigrated := (hdone p).1
    refine ⟨hmigrated.migrations, hmigrated.version,
      ⟨hinv.tables.1, fun name => ⟨hinv.tables.2 name, hmigrated.tables name⟩⟩, ?_⟩
    cases hwriter : s.store.writer with
    | none => rfl
    | some lock => exact absurd hwriter ((hdone lock.1).2 lock.2)

/-- One process opens the store after the other. -/
def oneAfterOther : List Bool := replicate 22 true ++ replicate 5 false

/-- Both processes read version 0, and then one gets through before the other goes on. -/
def bothReadFirst : List Bool := [true, false] ++ replicate 21 true ++ replicate 17 false

/-- The state that an interleaving of two processes leads to. -/
def openedBy (acts : List Bool) : Option (Opening Bool) := Run.exec (Opening.step fun _ => "sha256") {} acts

theorem initialize_succeeds_iff_oneAfterOther :
    Run.EachStep (Opening.step fun _ => "sha256") ({} : Opening Bool) oneAfterOther ReadsAlone := by
  obtain ⟨s, hs⟩ : ∃ s, openedBy oneAfterOther = some s := ⟨_, rfl⟩
  have hprocs : (openedBy oneAfterOther).map (fun s => (s.procs true, s.procs false)) = some (.running [], .running []) := by
    decide
  have hstore : (openedBy oneAfterOther).map (fun s => (s.store.committed, s.store.writer)) =
      some ({ tables := schemaNames, migrations := [(1, "sha256")], user_version := 1 }, none) := by
    decide
  rw [hs, map_some, some.injEq, Prod.mk.injEq] at hprocs hstore
  have hthrough : ∀ p, s.procs p = .running [] := Bool.forall_bool.mpr hprocs.symm
  have hmax : ∀ p, s.step (fun _ => "sha256") p = none := fun p => by rw [Opening.step, hthrough p]
  refine (initialize_succeeds_iff hs hmax).mp ⟨hthrough, ?_⟩
  constructor
  · rw [hstore.1]
  · rw [hstore.1]
  · rw [hstore.1]
    exact ⟨by decide, fun _ => Iff.rfl⟩
  · exact hstore.2

/-- The second process fails at the row that the first has inserted. -/
theorem fails_bothReadFirst :
    (openedBy bothReadFirst).map (fun s => (s.procs true, s.procs false)) =
      some (.running [], .failed .corruption) := by
  decide

end ZapTrace.StoreInitialization
