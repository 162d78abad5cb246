import Mathlib.Data.List.Infix
import Mathlib.Data.Nat.Notation
import Mathlib.Logic.Function.Basic
import ZapTrace.Library.Run

/-!
# Processes that create the state store

Each process that opens the store reads the version of the schema, and then migrates it from there. A
migration begins a transaction, which the script of the migration commits at once; its tables are created
one by one, and its row and the new version are written in a second transaction. Statements are atomic, and
one process at a time has the lock of a write transaction.
-/

namespace ZapTrace.StoreInitialization

open Function (update)

def SCHEMA_VERSION : ℕ := 1

/-- What the database has of a schema: its tables and indexes, the rows of `schema_migrations`, and
`user_version`. -/
structure Database where
  tables : List String := []
  migrations : List (ℕ × String) := []
  user_version : ℕ := 0
deriving DecidableEq

/-- The tables and indexes of `_MIGRATION_1`, in its order. -/
def schemaNames : List String :=
  ["schema_migrations", "sessions", "content_blobs", "design_versions", "idx_design_versions_session_name",
    "design_heads", "session_records", "idx_session_records_lookup", "audit_events",
    "idx_audit_events_session_created", "idx_audit_events_object", "object_access"]

/-- A statement of `_initialize`. -/
inductive Statement
  | readVersion
  | journalMode
  | synchronous
  | beginImmediate
  | commit
  | createIfNotExists (name : String)
  | insertMigration (version : ℕ) (checksum : String)
  | setVersion (version : ℕ)
  | readMigrations
  | quickCheck
deriving DecidableEq

/-- Why a construction raises. -/
inductive StoreError
  | corruption
  | schema
deriving DecidableEq

section

variable (checksum : ℕ → String)

/-- `_apply_migration`: the script commits the transaction that was begun before it. -/
def applyMigration (version : ℕ) : List Statement :=
  .beginImmediate :: .commit :: schemaNames.map .createIfNotExists ++
    [.insertMigration version (checksum version), .setVersion version, .commit]

/-- `_initialize` after the version has been read. -/
def initializeFrom (current_version : ℕ) : List Statement :=
  [.journalMode, .synchronous] ++
    (List.range' (current_version + 1) (SCHEMA_VERSION - current_version)).flatMap (applyMigration checksum) ++
    [.readMigrations, .quickCheck]

end

variable {ι : Type} [DecidableEq ι]

/-- The committed contents, and the process that has the lock with what it has written. -/
structure Store (ι : Type) where
  committed : Database := {}
  writer : Option (ι × Database) := none

namespace Store

variable (st : Store ι) (p : ι)

/-- The contents as a process sees them. -/
def view : Database :=
  match st.writer with
  | some (q, db) => if q = p then db else st.committed
  | none => st.committed

/-- Begin a write transaction, or go on with one; wait for that of another process. -/
def begin : Option (Store ι) :=
  match st.writer with
  | none => some { st with writer := some (p, st.committed) }
  | some (q, _) => if q = p then some st else none

/-- Commit the transaction of the process, if it has one. -/
def commit : Store ι :=
  match st.writer with
  | none => st
  | some (q, db) => if q = p then { committed := db } else st

/-- Roll back the transaction of the process, if it has one. -/
def rollback : Store ι :=
  match st.writer with
  | none => st
  | some (q, _) => if q = p then { st with writer := none } else st

/-- A write in the transaction of the process, or by itself; it waits for the lock of another process. -/
def write (f : Database → Database) : Option (Store ι) :=
  match st.writer with
  | none => some { st with committed := f st.committed }
  | some (q, db) => if q = p then some { st with writer := some (p, f db) } else none

end Store

/-- What a statement leads to: the store, and statements that come next, or an exception. -/
abbrev Result (ι : Type) := Except StoreError (Store ι × List Statement)

section

variable (checksum : ℕ → String)

/-- A statement of a process; `none` when it has to wait. -/
def execute (st : Store ι) (p : ι) : Statement → Option (Result ι)
  | .readVersion =>
    if (st.view p).user_version > SCHEMA_VERSION then some (.error .schema)
    else some (.ok (st, initializeFrom checksum (st.view p).user_version))
  | .journalMode | .synchronous | .quickCheck => some (.ok (st, []))
  | .beginImmediate => (st.begin p).map fun st => .ok (st, [])
  | .commit => some (.ok (st.commit p, []))
  | .createIfNotExists name =>
    if name ∈ (st.view p).tables then some (.ok (st, []))
    else (st.write p fun db => { db with tables := db.tables ++ [name] }).map fun st => .ok (st, [])
  | .insertMigration version sum =>
    -- the driver opens a transaction before an insertion
    (st.begin p).bind fun st =>
      if "schema_migrations" ∉ (st.view p).tables then some (.error .corruption)
      else if version ∈ (st.view p).migrations.map Prod.fst then some (.error .corruption)
      else (st.write p fun db => { db with migrations := db.migrations ++ [(version, sum)] }).map fun st => .ok (st, [])
  | .setVersion version =>
    (st.write p fun db => { db with user_version := version }).map fun st => .ok (st, [])
  | .readMigrations =>
    if "schema_migrations" ∉ (st.view p).tables then some (.error .corruption)
    else if ∀ version ∈ List.range' 1 SCHEMA_VERSION,
        (st.view p).migrations.lookup version = some (checksum version) then
      some (.ok (st, []))
    else some (.error .schema)

end

/-- A process that opens the store: the statements it has yet to run, or how it has failed. -/
inductive Process
  | running (todo : List Statement)
  | failed (e : StoreError)
deriving DecidableEq

/-- The store and the processes that open it. -/
structure Opening (ι : Type) where
  store : Store ι := {}
  procs : ι → Process := fun _ => .running [.readVersion]

/-- The next statement of a process. A process that is through or has failed has none. -/
def Opening.step (checksum : ℕ → String) (s : Opening ι) (p : ι) : Option (Opening ι) :=
  match s.procs p with
  | .failed _ | .running [] => none
  | .running (stmt :: rest) =>
    (execute checksum s.store p stmt).map fun
      | .ok (st, next) => { store := st, procs := update s.procs p (.running (next ++ rest)) }
      | .error e => { store := s.store.rollback p, procs := update s.procs p (.failed e) }

/-- The first statement of a process that reads version 0 is the first of all. -/
def ReadsAlone (s : Opening ι) (p : ι) : Prop :=
  s.procs p = .running [.readVersion] → s.store.committed.user_version = 0 →
    ∀ q, q ≠ p → s.procs q = .running [.readVersion]

/-- The schema has been applied exactly once. -/
structure Applied (checksum : ℕ → String) (st : Store ι) : Prop where
  migrations : st.committed.migrations = [(1, checksum 1)]
  version : st.committed.user_version = 1
  tables : st.committed.tables.Nodup ∧ ∀ name, name ∈ st.committed.tables ↔ name ∈ schemaNames
  unlocked : st.writer = none

end ZapTrace.StoreInitialization
