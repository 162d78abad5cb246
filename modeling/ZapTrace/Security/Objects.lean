import Mathlib.Data.Finset.Erase
import Mathlib.Data.Finset.Insert
import ZapTrace.Library.Links
import ZapTrace.Library.Prog
import ZapTrace.Library.PyValue

/-!
# Object authorization

An object has an owner, delegates, and perhaps a parent object, which access to it depends on too. The
records are kept in memory and, unless persistence is disabled, in a durable table from which the memory
is filled when it misses one. An object without a record may be claimed, with a parent of any name.

Normalising a key twice is normalising it once, so functions that receive a normalised key take it as
it is. Times are of a type of their own, and the identifiers and times of the events are left out.
-/

namespace ZapTrace

open Prog

/-- The normalised type and identifier of an object. -/
structure ObjectKey where
  object_type : String
  object_id : String
  deriving DecidableEq

/-- `_key`; `lower` is `str.lower`. -/
def objectKey (lower : String → String) (object_type object_id : String) : ObjectKey :=
  ⟨lower (pyStrip object_type), pyStrip object_id⟩

/-- The identity of a caller. -/
structure RequestPrincipal where
  principal_id : String
  actor : String
  scopes : List String := []
  authenticated : Bool := false
  local_development : Bool := false

def RequestPrincipal.isAdmin (principal : RequestPrincipal) : Bool :=
  principal.scopes.contains "object-admin"

/-- Ownership and delegation of one object. -/
structure ObjectAccessRecord (τ : Type) where
  object_type : String
  object_id : String
  owner_principal : String
  delegates : Finset String := ∅
  parent_object_type : String := ""
  parent_object_id : String := ""
  created_at : τ
  deriving DecidableEq

namespace ObjectAccessRecord

variable {τ : Type} (record : ObjectAccessRecord τ)

def key : ObjectKey := ⟨record.object_type, record.object_id⟩

/-- The parent as removals compare it, empty texts included. -/
def parentKey : ObjectKey := ⟨record.parent_object_type, record.parent_object_id⟩

/-- The parent as authorization follows it. -/
def parentRef : Option ObjectKey :=
  if record.parent_object_type = "" ∨ record.parent_object_id = "" then none else some record.parentKey

end ObjectAccessRecord

structure AuthorizationEvent where
  principal : RequestPrincipal
  object : ObjectKey
  parent : ObjectKey
  action : String
  decision : String
  reason : String
  request_id : String

/-- The records in memory, the durable ones unless persistence is disabled, and the events. -/
structure AccessState (τ : Type) where
  cache : Dict ObjectKey (ObjectAccessRecord τ) := Dict.empty
  store : Option (Dict ObjectKey (ObjectAccessRecord τ))
  events : List AuthorizationEvent := []

/-- No records, with persistence or without. -/
def AccessState.init (τ : Type) (persistent : Bool) : AccessState τ :=
  { store := if persistent then some Dict.empty else none }

inductive AccessError
  | accessDenied (message : String)
  | valueError (message : String)
  | recursionError
  deriving DecidableEq

/-- An operation on the records. -/
abbrev AccessOp (τ : Type) := Prog (AccessState τ) AccessError

def targetObjectDenied : String := "principal is not authorized for the target object"

def delegatePrincipalRequired : String := "delegate principal is required"

variable {τ : Type}

/-! ## The durable table -/

namespace AccessTable

variable (table : Dict ObjectKey (ObjectAccessRecord τ))

/-- `upsert_object_access`: a row that is there keeps its time of creation. -/
def upsertObjectAccess (record : ObjectAccessRecord τ) : Dict ObjectKey (ObjectAccessRecord τ) :=
  match table.get? record.key with
  | some row => table.set record.key { record with created_at := row.created_at }
  | none => table.set record.key record

/-- `delete_object_access`: with `cascade`, also the rows whose parents lead to the object. -/
def deleteObjectAccess (key : ObjectKey) (cascade : Bool) : Dict ObjectKey (ObjectAccessRecord τ) :=
  if cascade then Links.deleteLinked (fun record => some record.parentKey) [key] table
  else table.erase key

end AccessTable

def persistObjectAccess (record : ObjectAccessRecord τ) : AccessOp τ Unit :=
  modify fun s => { s with store := s.store.map fun t => AccessTable.upsertObjectAccess t record }

/-! ## Authorization -/

def getObjectAccess (key : ObjectKey) : AccessOp τ (Option (ObjectAccessRecord τ)) := do
  let s ← get
  match s.cache.get? key with
  | some record => pure (some record)
  | none =>
    match s.store.bind fun t => t.get? key with
    | none => pure none
    | some record => do
      modify fun s => { s with cache := s.cache.set key record }
      pure (some record)

def recordAuthorizationEvent (principal : RequestPrincipal) (key : ObjectKey)
    (action decision reason request_id : String) : AccessOp τ Unit :=
  modify fun s => { s with
    events := s.events ++ [
      { principal := principal, object := key
        parent := ((s.cache.get? key).map ObjectAccessRecord.parentKey).getD ⟨"", ""⟩
        action := action, decision := decision, reason := reason, request_id := request_id }] }

/-- The arguments of an authorization besides the object. The parent is normalised. -/
structure AuthorizeArgs (τ : Type) where
  principal : RequestPrincipal
  action : String
  request_id : String
  allow_claim : Bool := false
  parent : ObjectKey := ⟨"", ""⟩
  now : τ

/-- The arguments with which the parent of an object is authorized. -/
def AuthorizeArgs.forParent (args : AuthorizeArgs τ) : AuthorizeArgs τ :=
  { principal := args.principal, action := "parent:" ++ args.action
    request_id := args.request_id, now := args.now }

def claimedRecord (key : ObjectKey) (args : AuthorizeArgs τ) : ObjectAccessRecord τ :=
  { object_type := key.object_type, object_id := key.object_id
    owner_principal := args.principal.principal_id
    parent_object_type := args.parent.object_type, parent_object_id := args.parent.object_id
    created_at := args.now }

def claimObject (key : ObjectKey) (args : AuthorizeArgs τ) : AccessOp τ (ObjectAccessRecord τ) := do
  modify fun s => { s with cache := s.cache.set key (claimedRecord key args) }
  persistObjectAccess (claimedRecord key args)
  recordAuthorizationEvent args.principal key args.action "allow" "object claimed by principal"
    args.request_id
  pure (claimedRecord key args)

def directAccessDecision (record : ObjectAccessRecord τ) (principal : RequestPrincipal) : Bool × String :=
  if principal.isAdmin then (true, "administrator override")
  else if principal.principal_id = record.owner_principal then (true, "object owner")
  else if principal.principal_id ∈ record.delegates then (true, "delegated object access")
  else (false, "principal is not owner, delegate, or administrator")

/-- The exceptions that a decision on the parent catches. -/
def AccessError.isDenied : AccessError → Bool
  | accessDenied _ => true
  | valueError _ | recursionError => false

/-- `_parent_access_decision`, given how the parent is authorized. -/
def parentAccessDecision
    (authorizeParent : ObjectKey → AuthorizeArgs τ → AccessOp τ (ObjectAccessRecord τ))
    (record : ObjectAccessRecord τ) (args : AuthorizeArgs τ) (direct : Bool × String) :
    AccessOp τ (Bool × String) :=
  match record.parentRef with
  | none => pure direct
  | some parent =>
    tryExcept
      (do
        let _ ← authorizeParent parent args.forParent
        pure (if direct.1 then (true, direct.2)
          else (true, "access inherited from authorized parent object")))
      AccessError.isDenied
      fun _ => pure (false, "principal is not authorized for the parent object")

/-- Record a denial, and raise. -/
def denyAccess {α : Type} (key : ObjectKey) (args : AuthorizeArgs τ) (reason message : String) :
    AccessOp τ α := do
  recordAuthorizationEvent args.principal key args.action "deny" reason args.request_id
  raise (.accessDenied message)

/-- The end of an authorization, where the decision is made. -/
def decideAccess (key : ObjectKey) (args : AuthorizeArgs τ) (record : ObjectAccessRecord τ)
    (decision : Bool × String) : AccessOp τ (ObjectAccessRecord τ) := do
  recordAuthorizationEvent args.principal key args.action (if decision.1 then "allow" else "deny")
    decision.2 args.request_id
  if decision.1 then pure record else raise (.accessDenied targetObjectDenied)

/-- `authorize_object`, for a depth of recursion. -/
def authorizeObject : ℕ → ObjectKey → AuthorizeArgs τ → AccessOp τ (ObjectAccessRecord τ)
  | 0, _, _ => raise .recursionError
  | depth + 1, key, args =>
    if key.object_id = "" then
      denyAccess key args "empty object identifier" "object identifier is required"
    else do
      let record ← getObjectAccess key
      match record with
      | none =>
        if args.allow_claim then claimObject key args
        else denyAccess key args "object is not registered for this principal" targetObjectDenied
      | some record => do
        let decision ← parentAccessDecision (authorizeObject depth) record args
          (directAccessDecision record args.principal)
        decideAccess key args record decision

/-! ## Delegation -/

/-- The arguments of a delegation or a revocation. -/
structure DelegateArgs (τ : Type) where
  principal : RequestPrincipal
  delegate_principal : String
  request_id : String
  now : τ

/-- A change of the delegates of a record, with its texts. -/
structure DelegationKind where
  action : String
  verb : String
  reason : String
  write : String → Finset String → Finset String

def delegation : DelegationKind := ⟨"delegate", "delegate", "delegated access to ", insert⟩

def revocation : DelegationKind :=
  ⟨"revoke-delegate", "revoke", "revoked delegated access from ", fun d ds => ds.erase d⟩

/-- The last part of a delegation or a revocation, which writes the delegates and persists them. -/
def writeDelegates (key : ObjectKey) (kind : DelegationKind) (args : DelegateArgs τ)
    (record : ObjectAccessRecord τ) : AccessOp τ (ObjectAccessRecord τ) :=
  if !args.principal.isAdmin ∧ args.principal.principal_id ≠ record.owner_principal then do
    recordAuthorizationEvent args.principal record.key kind.action "deny"
      ("only owner or administrator may " ++ kind.verb ++ " access") args.request_id
    raise (.accessDenied ("only owner or administrator may " ++ kind.verb ++ " object access"))
  else if pyStrip args.delegate_principal = "" then do
    recordAuthorizationEvent args.principal record.key kind.action "deny" delegatePrincipalRequired
      args.request_id
    raise (.valueError delegatePrincipalRequired)
  else do
    let delegate := pyStrip args.delegate_principal
    let changed := { record with delegates := kind.write delegate record.delegates }
    modify fun s => { s with cache := s.cache.set key changed }
    persistObjectAccess changed
    recordAuthorizationEvent args.principal record.key kind.action "allow" (kind.reason ++ delegate)
      args.request_id
    pure changed

def delegateObjectAccess (depth : ℕ) (key : ObjectKey) (args : DelegateArgs τ) :
    AccessOp τ (ObjectAccessRecord τ) := do
  let record ← getObjectAccess key
  match record with
  | some record => writeDelegates key delegation args record
  | none => do
    let record ← authorizeObject depth key
      { principal := args.principal, action := "delegate", request_id := args.request_id
        now := args.now }
    writeDelegates key delegation args record

def revokeObjectAccess (key : ObjectKey) (args : DelegateArgs τ) : AccessOp τ (ObjectAccessRecord τ) := do
  let record ← getObjectAccess key
  match record with
  | some record => writeDelegates key revocation args record
  | none => do
    recordAuthorizationEvent args.principal key revocation.action "deny"
      "object is not registered for this principal" args.request_id
    raise (.accessDenied targetObjectDenied)

/-! ## Removal -/

/-- `remove_object_access`, for a depth of recursion. A call below the first takes a record out of the
memory, so the depth is at most their number. -/
def removeObjectAccess (cascade : Bool) : ℕ → ObjectKey → AccessState τ → AccessState τ
  | 0, _, s => s
  | depth + 1, key, s =>
    let s := { s with
      cache := s.cache.erase key
      store := s.store.map fun t => AccessTable.deleteObjectAccess t key cascade }
    if cascade then
      (Links.children (fun record => some record.parentKey) s.cache key).foldl
        (fun s child => removeObjectAccess cascade depth child s) s
    else s

/-! ## Calls -/

/-- A call, with the texts of the object as they come, or a restart, which empties the memory. -/
inductive AccessCall (τ : Type)
  | getObjectAccess (object_type object_id : String)
  | authorizeObject (object_type object_id : String) (principal : RequestPrincipal)
      (action request_id : String) (allow_claim : Bool) (parent_object_type parent_object_id : String)
      (now : τ)
  | delegateObjectAccess (object_type object_id : String) (args : DelegateArgs τ)
  | revokeObjectAccess (object_type object_id : String) (args : DelegateArgs τ)
  | removeObjectAccess (object_type object_id : String) (cascade : Bool)
  | restart

namespace AccessCall

variable (lower : String → String) (depth : ℕ)

/-- The arguments of an authorization, with the parent normalised. -/
def authorizeArgs (principal : RequestPrincipal) (action request_id : String) (allow_claim : Bool)
    (parent_object_type parent_object_id : String) (now : τ) : AuthorizeArgs τ :=
  { principal := principal, action := action, request_id := request_id, allow_claim := allow_claim
    parent := objectKey lower parent_object_type parent_object_id, now := now }

/-- The records that a call leaves, also when it raises. Authorization may go to the depth. -/
def run : AccessCall τ → AccessState τ → AccessState τ
  | getObjectAccess object_type object_id, s =>
    (ZapTrace.getObjectAccess (objectKey lower object_type object_id) s).2
  | authorizeObject object_type object_id principal action request_id allow_claim parent_object_type
      parent_object_id now, s =>
    (ZapTrace.authorizeObject (depth + 1) (objectKey lower object_type object_id)
      (authorizeArgs lower principal action request_id allow_claim parent_object_type parent_object_id
        now) s).2
  | delegateObjectAccess object_type object_id args, s =>
    (ZapTrace.delegateObjectAccess (depth + 1) (objectKey lower object_type object_id) args s).2
  | revokeObjectAccess object_type object_id args, s =>
    (ZapTrace.revokeObjectAccess (objectKey lower object_type object_id) args s).2
  | removeObjectAccess object_type object_id cascade, s =>
    ZapTrace.removeObjectAccess cascade (s.cache.keys.length + 1)
      (objectKey lower object_type object_id) s
  | restart, s => { store := s.store }

end AccessCall

end ZapTrace
