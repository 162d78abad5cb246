import ZapTrace.Library.Faulty
import ZapTrace.Security.ObjectEffects

/-!
# Object authorization with failing writes

The operations on the access records, where each write to the durable table and to the durable log may
fail. An operation changes the records in memory first.
-/

namespace ZapTrace.ObjectWrites

open Prog Faulty

variable {τ : Type}

/-- An operation on the records whose durable writes may fail. -/
abbrev AccessOp (τ : Type) := Prog (Faulty (AccessState τ)) (Raised AccessError)

/-- The exceptions that a decision on the parent catches. -/
def isDenied : Raised AccessError → Bool
  | .refused e => e.isDenied
  | .storage => false

/-- A durable write, unless persistence is disabled. -/
def durably (f : AccessState τ → AccessState τ) : AccessOp τ Unit := do
  let s ← get
  if s.state.store.isSome then Faulty.write f else pure ()

def persistObjectAccess (record : ObjectAccessRecord τ) : AccessOp τ Unit :=
  durably fun s => { s with store := s.store.map fun t => AccessTable.upsertObjectAccess t record }

/-- `_record_authorization_event`: the event is kept in memory, and then in the durable log. -/
def recordAuthorizationEvent (principal : RequestPrincipal) (key : ObjectKey)
    (action decision reason request_id : String) : AccessOp τ Unit := do
  lift (ZapTrace.recordAuthorizationEvent principal key action decision reason request_id)
  durably id

def claimObject (key : ObjectKey) (args : AuthorizeArgs τ) : AccessOp τ (ObjectAccessRecord τ) := do
  lift (modify fun s => { s with cache := s.cache.set key (claimedRecord key args) })
  persistObjectAccess (claimedRecord key args)
  recordAuthorizationEvent args.principal key args.action "allow" "object claimed by principal"
    args.request_id
  pure (claimedRecord key args)

/-- `_parent_access_decision`, given how the parent is authorized. -/
def parentAccessDecision
    (authorizeParent : ObjectKey → AuthorizeArgs τ → AccessOp τ (ObjectAccessRecord τ))
    (record : ObjectAccessRecord τ) (args : AuthorizeArgs τ) (direct : Bool × String) :
    AccessOp τ (Bool × String) :=
  match record.parentRef with
  | none => pure direct
  | some parent =>
    tryExcept
      (do
        let _ ← authorizeParent parent args.forParent
        pure (if direct.1 then (true, direct.2)
          else (true, "access inherited from authorized parent object")))
      isDenied
      fun _ => pure (false, "principal is not authorized for the parent object")

/-- Record a denial, and raise. -/
def denyAccess {α : Type} (key : ObjectKey) (args : AuthorizeArgs τ) (reason message : String) :
    AccessOp τ α := do
  recordAuthorizationEvent args.principal key args.action "deny" reason args.request_id
  raise (.refused (.accessDenied message))

/-- The end of an authorization, where the decision is made. -/
def decideAccess (key : ObjectKey) (args : AuthorizeArgs τ) (record : ObjectAccessRecord τ)
    (decision : Bool × String) : AccessOp τ (ObjectAccessRecord τ) := do
  recordAuthorizationEvent args.principal key args.action (if decision.1 then "allow" else "deny")
    decision.2 args.request_id
  if decision.1 then pure record else raise (.refused (.accessDenied targetObjectDenied))

/-- `authorize_object`, for a depth of recursion. -/
def authorizeObject : ℕ → ObjectKey → AuthorizeArgs τ → AccessOp τ (ObjectAccessRecord τ)
  | 0, _, _ => raise (.refused .recursionError)
  | depth + 1, key, args =>
    if key.object_id = "" then
      denyAccess key args "empty object identifier" "object identifier is required"
    else do
      let record ← lift (getObjectAccess key)
      match record with
      | none =>
        if args.allow_claim then claimObject key args
        else denyAccess key args "object is not registered for this principal" targetObjectDenied
      | some record => do
        let decision ← parentAccessDecision (authorizeObject depth) record args
          (directAccessDecision record args.principal)
        decideAccess key args record decision

/-- The last part of a delegation or a revocation, which writes the delegates and persists them. -/
def writeDelegates (key : ObjectKey) (kind : DelegationKind) (args : DelegateArgs τ)
    (record : ObjectAccessRecord τ) : AccessOp τ (ObjectAccessRecord τ) :=
  if !args.principal.isAdmin ∧ args.principal.principal_id ≠ record.owner_principal then do
    recordAuthorizationEvent args.principal record.key kind.action "deny"
      ("only owner or administrator may " ++ kind.verb ++ " access") args.request_id
    raise (.refused
      (.accessDenied ("only owner or administrator may " ++ kind.verb ++ " object access")))
  else if pyStrip args.delegate_principal = "" then do
    recordAuthorizationEvent args.principal record.key kind.action "deny" delegatePrincipalRequired
      args.request_id
    raise (.refused (.valueError delegatePrincipalRequired))
  else do
    let delegate := pyStrip args.delegate_principal
    let changed := { record with delegates := kind.write delegate record.delegates }
    lift (modify fun s => { s with cache := s.cache.set key changed })
    persistObjectAccess changed
    recordAuthorizationEvent args.principal record.key kind.action "allow" (kind.reason ++ delegate)
      args.request_id
    pure changed

def delegateObjectAccess (depth : ℕ) (key : ObjectKey) (args : DelegateArgs τ) :
    AccessOp τ (ObjectAccessRecord τ) := do
  let record ← lift (getObjectAccess key)
  match record with
  | some record => writeDelegates key delegation args record
  | none => do
    let record ← authorizeObject depth key
      { principal := args.principal, action := "delegate", request_id := args.request_id
        now := args.now }
    writeDelegates key delegation args record

def revokeObjectAccess (key : ObjectKey) (args : DelegateArgs τ) : AccessOp τ (ObjectAccessRecord τ) := do
  let record ← lift (getObjectAccess key)
  match record with
  | some record => writeDelegates key revocation args record
  | none => do
    recordAuthorizationEvent args.principal key revocation.action "deny"
      "object is not registered for this principal" args.request_id
    raise (.refused (.accessDenied targetObjectDenied))

/-- `remove_object_access`, for a depth of recursion. -/
def removeObjectAccess (cascade : Bool) : ℕ → ObjectKey → AccessOp τ Unit
  | 0, _ => pure ()
  | depth + 1, key => do
    lift (modify fun s => { s with cache := s.cache.erase key })
    durably fun s => { s with store := s.store.map fun t => AccessTable.deleteObjectAccess t key cascade }
    if cascade then
      let s ← get
      forEach (removeObjectAccess cascade depth)
        (Links.children (fun record => some record.parentKey) s.state.cache key)
    else pure ()

end ZapTrace.ObjectWrites
