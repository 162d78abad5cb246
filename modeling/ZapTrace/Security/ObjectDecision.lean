import Mathlib.Data.Finite.Defs
import Mathlib.Order.WellFounded
import ZapTrace.Security.ObjectTermination

/-!
# What authorization decides

An object with a parent is authorized exactly when its parent is, so a decision is made at the last
object of the chain of parents: the caller is an administrator, or the owner or a delegate of that
object, and no object of the chain is missing. What is recorded on other objects does not count.

## Main results

* `decides_of_ends`: authorization of an object whose chain ends decides what its last object decides
* `decides_lastEntitled`: in a table without cycles this is so for every object
-/

namespace ZapTrace

open Prog

open Links (Leads Ends)

variable {τ : Type}

/-- An object has a record. An identifier that is empty names no object. -/
def Registered (s : AccessState τ) (key : ObjectKey) : Prop :=
  key.object_id ≠ "" ∧ ∃ record, s.lookup key = some record

/-- No object is among its own parents. -/
def Acyclic (s : AccessState τ) : Prop :=
  ∀ key parent, s.next key = some parent → ¬ Leads s.next parent key

/-- The caller may use the object by its own record. -/
def Entitled (record : ObjectAccessRecord τ) (principal : RequestPrincipal) : Prop :=
  principal.isAdmin ∨ principal.principal_id = record.owner_principal ∨
    principal.principal_id ∈ record.delegates

/-- All objects of the chain are registered, and the caller is entitled at the last of them. -/
def LastEntitled (s : AccessState τ) (key : ObjectKey) (principal : RequestPrincipal) : Prop :=
  (∀ y, Leads s.next key y → Registered s y) ∧
    ∃ last record, Leads s.next key last ∧ s.next last = none ∧ s.lookup last = some record ∧
      Entitled record principal

/-- When the recursion may go deep enough, authorization without a claim succeeds exactly when the
statement holds, and is denied otherwise. -/
def Decides (s : AccessState τ) (key : ObjectKey) (args : AuthorizeArgs τ) (allowed : Prop) : Prop :=
  ∃ bound, ∀ depth ≥ bound,
    (allowed → ∃ record, (authorizeObject depth key args s).1 = .ok record) ∧
    (¬ allowed → ∃ message, (authorizeObject depth key args s).1 = .error (.accessDenied message))

/-! ## One object -/

theorem directAccessDecision_iff (record : ObjectAccessRecord τ) (principal : RequestPrincipal) :
    (directAccessDecision record principal).1 = true ↔ Entitled record principal := by
  unfold directAccessDecision Entitled
  split_ifs with hadmin howner hdelegate <;> simp [*]

theorem decideAccess_fst (key : ObjectKey) (args : AuthorizeArgs τ) (record : ObjectAccessRecord τ)
    (decision : Bool × String) (s : AccessState τ) :
    (decideAccess key args record decision s).1 =
      if decision.1 then .ok record else .error (.accessDenied targetObjectDenied) := by
  rw [decideAccess, recordAuthorizationEvent, modify_bind]
  split <;> rfl

variable {s : AccessState τ} {record : ObjectAccessRecord τ} {key : ObjectKey}

theorem authorizeObject_of_parentRef_none (depth : ℕ) (args : AuthorizeArgs τ) (hid : key.object_id ≠ "")
    (hlookup : s.lookup key = some record) (hparent : record.parentRef = none) :
    (authorizeObject (depth + 1) key args s).1 =
      if (directAccessDecision record args.principal).1 then .ok record
      else .error (.accessDenied targetObjectDenied) := by
  rw [authorizeObject_of_some hid hlookup]
  simp only [parentAccessDecision, hparent, pure_bind_apply]
  exact decideAccess_fst ..

theorem authorizeObject_of_parentRef_some (depth : ℕ) {key parent : ObjectKey} (args : AuthorizeArgs τ)
    (hid : key.object_id ≠ "") (hlookup : s.lookup key = some record) (hparent : record.parentRef = some parent) :
    (authorizeObject (depth + 1) key args s).1 =
      match (authorizeObject depth parent args.forParent (getObjectAccess key s).2).1 with
      | .ok _ => .ok record
      | .error (.accessDenied _) => .error (.accessDenied targetObjectDenied)
      | .error e => .error e := by
  rw [authorizeObject_of_some hid hlookup]
  generalize (getObjectAccess key s).2 = t
  simp only [parentAccessDecision, hparent]
  rw [bind_apply]
  rcases hauth : authorizeObject depth parent args.forParent t with ⟨e | r, t'⟩
  · cases e <;> simp [tryExcept, bind_apply, hauth, AccessError.isDenied, decideAccess_fst]
  · simp only [tryExcept, bind_apply, hauth, pure_apply]
    split <;> exact decideAccess_fst ..

theorem authorizeObject_of_not_registered (depth : ℕ) (args : AuthorizeArgs τ) (h : ¬ Registered s key)
    (hclaim : args.allow_claim = false) :
    ∃ message, (authorizeObject (depth + 1) key args s).1 = .error (.accessDenied message) := by
  by_cases hid : key.object_id = ""
  · rw [authorizeObject_of_empty hid]
    exact ⟨_, rfl⟩
  · have hlookup : s.lookup key = none :=
      Option.eq_none_iff_forall_ne_some.mpr fun record hrecord => h ⟨hid, record, hrecord⟩
    rw [authorizeObject_of_none hid hlookup (by simp [hclaim])]
    exact ⟨_, rfl⟩

/-! ## Chains -/

theorem next_of_lookup (hid : key.object_id ≠ "") (hlookup : s.lookup key = some record) :
    s.next key = record.parentRef := by
  rw [AccessState.next, if_neg hid, hlookup]
  rfl

theorem lastEntitled_iff_of_parentRef_none (hid : key.object_id ≠ "") (hlookup : s.lookup key = some record)
    (hparent : record.parentRef = none) (principal : RequestPrincipal) :
    LastEntitled s key principal ↔ Entitled record principal := by
  have hnext : s.next key = none := by rw [next_of_lookup hid hlookup, hparent]
  have hchain : ∀ y, Leads s.next key y → y = key := by
    intro y hy
    rcases hy.cases_head with rfl | ⟨p, hp, -⟩
    · rfl
    · cases hnext.symm.trans hp
  constructor
  · rintro ⟨-, last, record', hlast, -, hrecord', hentitled⟩
    obtain rfl := hchain last hlast
    cases hlookup.symm.trans hrecord'
    exact hentitled
  · intro hentitled
    refine ⟨fun y hy => ?_, key, record, .refl key, hnext, hlookup, hentitled⟩
    rw [hchain y hy]
    exact ⟨hid, record, hlookup⟩

theorem lastEntitled_iff_of_parentRef_some {key parent : ObjectKey} (hid : key.object_id ≠ "")
    (hlookup : s.lookup key = some record) (hparent : record.parentRef = some parent) (principal : RequestPrincipal) :
    LastEntitled s key principal ↔ LastEntitled s parent principal := by
  have hnext : s.next key = some parent := by rw [next_of_lookup hid hlookup, hparent]
  constructor
  · rintro ⟨hall, last, record', hlast, hend, hrecord', hentitled⟩
    refine ⟨fun y hy => hall y (hy.head hnext), last, record', ?_, hend, hrecord', hentitled⟩
    rcases hlast.cases_head with rfl | ⟨p, hp, hrest⟩
    · cases hnext.symm.trans hend
    · cases hnext.symm.trans hp
      exact hrest
  · rintro ⟨hall, last, record', hlast, hend, hrecord', hentitled⟩
    refine ⟨fun y hy => ?_, last, record', hlast.head hnext, hend, hrecord', hentitled⟩
    rcases hy.cases_head with rfl | ⟨p, hp, hrest⟩
    · exact ⟨hid, record, hlookup⟩
    · cases hnext.symm.trans hp
      exact hall y hrest

/-- Authorization of an object whose chain of parents ends, from any state that finds the same
records. -/
theorem decides_of_ends (hends : Ends s.next key) :
    ∀ {s' : AccessState τ}, s'.lookup = s.lookup → ∀ args : AuthorizeArgs τ,
      args.allow_claim = false → Decides s' key args (LastEntitled s key args.principal) := by
  -- along the chain of parents: the bound for an object is one more than that for its parent
  induction hends with
  | intro key _ ih =>
    intro s' hs' args hclaim
    by_cases hregistered : Registered s key
    · obtain ⟨hid, record, hlookup⟩ := hregistered
      have hlookup' : s'.lookup key = some record := by rw [hs', hlookup]
      cases hparent : record.parentRef with
      | none =>
        rw [lastEntitled_iff_of_parentRef_none hid hlookup hparent, ← directAccessDecision_iff]
        refine ⟨1, fun depth hdepth => ?_⟩
        obtain ⟨depth, rfl⟩ := Nat.exists_eq_add_of_le' hdepth
        rw [authorizeObject_of_parentRef_none depth args hid hlookup' hparent]
        exact ⟨fun h => ⟨record, by rw [if_pos h]⟩, fun h => ⟨targetObjectDenied, by rw [if_neg h]⟩⟩
      | some parent =>
        have hnext : s.next key = some parent := by rw [next_of_lookup hid hlookup, hparent]
        have hhydrated : Hydrated s' (getObjectAccess key s').2 :=
          (getObjectAccess_hydrates key s').snd (.refl s')
        obtain ⟨bound, hbound⟩ := ih parent hnext (hhydrated.lookup_eq.trans hs') args.forParent rfl
        rw [lastEntitled_iff_of_parentRef_some hid hlookup hparent]
        refine ⟨bound + 1, fun depth hdepth => ?_⟩
        obtain ⟨depth, rfl⟩ := Nat.exists_eq_add_of_le' (Nat.le_of_add_left_le hdepth)
        obtain ⟨hallowed, hdenied⟩ := hbound depth (Nat.le_of_add_le_add_right hdepth)
        rw [authorizeObject_of_parentRef_some depth args hid hlookup' hparent]
        constructor
        · intro h
          obtain ⟨record', hrecord'⟩ := hallowed h
          rw [hrecord']
          exact ⟨record, rfl⟩
        · intro h
          obtain ⟨message, hmessage⟩ := hdenied h
          rw [hmessage]
          exact ⟨targetObjectDenied, rfl⟩
    · have hnot : ¬ LastEntitled s key args.principal := fun h => hregistered (h.1 key (.refl key))
      have hregistered' : ¬ Registered s' key := by
        rw [Registered, hs']
        exact hregistered
      refine ⟨1, fun depth hdepth => ⟨fun h => absurd h hnot, fun _ => ?_⟩⟩
      obtain ⟨depth, rfl⟩ := Nat.exists_eq_add_of_le' hdepth
      exact authorizeObject_of_not_registered depth args hregistered' hclaim

theorem Acyclic.ends (h : Acyclic s) (key : ObjectKey) : Ends s.next key := by
  have hkeys : ∀ k parent, s.next k = some parent →
      k ∈ s.cache.keys ++ (s.store.map Dict.keys).getD [] := by
    intro k parent hparent
    rw [AccessState.next] at hparent
    split at hparent
    · cases hparent
    · obtain ⟨record, hrecord, -⟩ := Option.bind_eq_some_iff.mp hparent
      rcases Option.or_eq_some_iff.mp hrecord with hcache | ⟨-, hdurable⟩
      · exact List.mem_append_left _ (Dict.mem_keys_iff.mpr ⟨record, hcache⟩)
      · obtain ⟨table, htable, hrow⟩ := Option.bind_eq_some_iff.mp hdurable
        rw [htable]
        exact List.mem_append_right _ (Dict.mem_keys_iff.mpr ⟨record, hrow⟩)
  exact Links.ends_of_acyclic hkeys h key

/-- **The decision** on an object is that of the last object of its chain. -/
theorem decides_lastEntitled (h : Acyclic s) (key : ObjectKey) {args : AuthorizeArgs τ}
    (hclaim : args.allow_claim = false) : Decides s key args (LastEntitled s key args.principal) :=
  decides_of_ends (h.ends key) rfl args hclaim

end ZapTrace
