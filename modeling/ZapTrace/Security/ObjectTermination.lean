import ZapTrace.Library.Run
import ZapTrace.Security.ObjectEffects

/-!
# When authorization terminates

Authorization goes from an object to its parent as long as there is one, and nothing bounds how often
but the chain of parents. A claim may name any parent, the object itself included, so authorization
terminates for all objects in exactly the runs in which no claim closes a cycle.

## Main results

* `terminates_iff_ends`: authorization terminates exactly when the chain of parents is finite
* `terminates_iff_closesNoCycle`: it terminates throughout a run exactly when no claim closes a cycle
-/

namespace ZapTrace

open Function AccessState

variable {τ : Type}

/-- The object that the authorization of an object goes on to. -/
def AccessState.next (s : AccessState τ) (key : ObjectKey) : Option ObjectKey :=
  if key.object_id = "" then none else (s.lookup key).bind ObjectAccessRecord.parentRef
variable {s s' : AccessState τ}

theorem Hydrated.next_eq (h : Hydrated s s') : s'.next = s.next := by
  ext key
  rw [AccessState.next, h.lookup_eq, AccessState.next]

/-- The authorization of an object comes to an end, whoever asks. -/
def Terminates (s : AccessState τ) (key : ObjectKey) : Prop :=
  ∀ args : AuthorizeArgs τ, ∃ depth, (authorizeObject depth key args s).1 ≠ .error .recursionError

/-! ## One authorization -/

theorem decideAccess_ne_recursionError (key : ObjectKey) (args : AuthorizeArgs τ)
    (record : ObjectAccessRecord τ) (decision : Bool × String) (s : AccessState τ) :
    (decideAccess key args record decision s).1 ≠ .error .recursionError := by
  rw [decideAccess, recordAuthorizationEvent, Prog.modify_bind]
  split <;> simp

theorem parentAccessDecision_eq_recursionError_iff
    (authorizeParent : ObjectKey → AuthorizeArgs τ → AccessOp τ (ObjectAccessRecord τ))
    {record : ObjectAccessRecord τ} {args : AuthorizeArgs τ} (direct : Bool × String) {parent : ObjectKey}
    (hparent : record.parentRef = some parent) (s : AccessState τ) :
    (parentAccessDecision authorizeParent record args direct s).1 = .error .recursionError ↔
      (authorizeParent parent args.forParent s).1 = .error .recursionError := by
  unfold parentAccessDecision
  rw [hparent]
  simp only [Prog.tryExcept, Prog.bind_apply]
  rcases authorizeParent parent args.forParent s with ⟨e | r, t⟩
  · cases e <;> simp [AccessError.isDenied]
  · simp

variable {key : ObjectKey}

theorem authorizeObject_of_lookup_none_ne (depth : ℕ) (args : AuthorizeArgs τ) {s : AccessState τ}
    (hid : key.object_id ≠ "") (hlookup : s.lookup key = none) :
    (authorizeObject (depth + 1) key args s).1 ≠ .error .recursionError := by
  cases hclaim : args.allow_claim with
  | true =>
    rw [(authorizeObject_of_claims depth ⟨hclaim, hid, hlookup⟩).1]
    exact nofun
  | false =>
    rw [authorizeObject_of_none hid hlookup (by simp [hclaim])]
    simp [denyAccess, recordAuthorizationEvent]

/-- An authorization stops at the object, or asks for its parent at the depth below. -/
theorem authorizeObject_succ_eq_recursionError_iff (depth : ℕ) (key : ObjectKey)
    (args : AuthorizeArgs τ) (s : AccessState τ) :
    (authorizeObject (depth + 1) key args s).1 = .error .recursionError ↔
      ∃ parent, s.next key = some parent ∧
        (authorizeObject depth parent args.forParent (getObjectAccess key s).2).1 =
          .error .recursionError := by
  by_cases hid : key.object_id = ""
  · rw [authorizeObject_of_empty hid]
    refine iff_of_false ?_ ?_
    · simp [denyAccess, recordAuthorizationEvent]
    · simp [AccessState.next, hid]
  have hnext : s.next key = (s.lookup key).bind ObjectAccessRecord.parentRef := by
    rw [AccessState.next, if_neg hid]
  rw [hnext]
  cases hlookup : s.lookup key with
  | none => exact iff_of_false (authorizeObject_of_lookup_none_ne depth args hid hlookup) (by simp)
  | some record =>
    rw [authorizeObject_of_some hid hlookup, Option.bind_some]
    generalize (getObjectAccess key s).2 = t
    have hbind : ∀ r : Except AccessError (Bool × String) × AccessState τ,
        parentAccessDecision (authorizeObject depth) record args
          (directAccessDecision record args.principal) t = r →
        (((do
          let decision ← parentAccessDecision (authorizeObject depth) record args
            (directAccessDecision record args.principal)
          decideAccess key args record decision : AccessOp τ _) t).1 = .error .recursionError ↔
            r.1 = .error .recursionError) := by
      rintro ⟨e | decision, t'⟩ hr
      · rw [Prog.bind_of_error hr]
        simp
      · rw [Prog.bind_of_ok hr]
        exact iff_of_false (decideAccess_ne_recursionError key args record decision t') (by simp)
    rw [hbind _ rfl]
    cases hparent : record.parentRef with
    | none => simp [parentAccessDecision, hparent]
    | some parent =>
      rw [parentAccessDecision_eq_recursionError_iff _ _ hparent]
      simp

/-- **Termination** of the authorization of one object: the chain of its parents is finite. -/
theorem terminates_iff_ends {s : AccessState τ} (someone : AuthorizeArgs τ) :
    Terminates s key ↔ Links.Ends s.next key := by
  constructor
  · intro h
    obtain ⟨depth, hdepth⟩ := h someone
    clear h
    induction depth generalizing key someone s with
    | zero => exact absurd rfl hdepth
    | succ depth ih =>
      refine Links.ends_iff.mpr fun parent hparent => ?_
      have hhydrated : Hydrated s (getObjectAccess key s).2 := (getObjectAccess_hydrates key s).snd (.refl s)
      rw [← hhydrated.next_eq]
      apply ih someone.forParent
      intro herr
      exact hdepth ((authorizeObject_succ_eq_recursionError_iff ..).mpr ⟨parent, hparent, herr⟩)
  · intro h
    have hall : ∀ s' : AccessState τ, s'.next = s.next → Terminates s' key := by
      induction h with
      | intro key _ ih =>
        intro s' hs' args
        cases hnext : s.next key with
        | none =>
          refine ⟨1, fun herr => ?_⟩
          obtain ⟨parent, hparent, -⟩ := (authorizeObject_succ_eq_recursionError_iff ..).mp herr
          rw [hs', hnext] at hparent
          cases hparent
        | some parent =>
          have hhydrated : Hydrated s' (getObjectAccess key s').2 :=
            (getObjectAccess_hydrates key s').snd (.refl s')
          obtain ⟨depth, hdepth⟩ := ih parent hnext _ (hhydrated.next_eq.trans hs') args.forParent
          refine ⟨depth + 1, fun herr => ?_⟩
          obtain ⟨p, hp, herr'⟩ := (authorizeObject_succ_eq_recursionError_iff ..).mp herr
          rw [hs', hnext] at hp
          cases hp
          exact hdepth herr'
    exact hall s rfl

/-! ## Runs -/

/-- A claim does not close a cycle: the parents of its parent do not lead to its object. -/
def ClosesNoCycle (lower : String → String) (s : AccessState τ) : AccessCall τ → Prop
  | .authorizeObject object_type object_id principal action request_id allow_claim parent_object_type
      parent_object_id now =>
    let key := objectKey lower object_type object_id
    let args := AccessCall.authorizeArgs lower principal action request_id allow_claim parent_object_type
      parent_object_id now
    Claims s key args →
      ∀ parent, (claimedRecord key args).parentRef = some parent → ¬ Links.Leads s.next parent key
  | _ => True

theorem RecordWritten.next_eq {record : ObjectAccessRecord τ} (h : RecordWritten record s s') :
    s'.next = update s.next record.key
      (if record.object_id = "" then none else record.parentRef) := by
  ext1 key
  rw [AccessState.next, h.lookup_eq]
  by_cases hkey : key = record.key
  · subst hkey
    rw [update_self, update_self]
    rfl
  · rw [update_of_ne hkey, update_of_ne hkey, AccessState.next]

/-- What is a parent after records were taken out was one before. -/
theorem Shrunk.next (hs : Consistent s) (h : Shrunk s s') (key parent : ObjectKey) (hparent : s'.next key = some parent) :
    s.next key = some parent := by
  unfold AccessState.next at hparent ⊢
  split at hparent
  · cases hparent
  · rename_i hid
    rw [if_neg hid]
    obtain ⟨record, hrecord, hparent⟩ := Option.bind_eq_some_iff.mp hparent
    exact Option.bind_eq_some_iff.mpr ⟨record, h.lookup hs hrecord, hparent⟩

theorem RedelegatedBy.next_eq {write : Finset String → Finset String} (h : RedelegatedBy write key s s') :
    s'.next = s.next := by
  obtain ⟨t, record, hhydrated, hrecord, rfl, hwritten⟩ := h
  rw [hwritten.next_eq, ← hhydrated.next_eq]
  apply update_eq_self_iff.mpr
  have hlookup : t.lookup record.key = some record := by rw [lookup, hrecord, Option.some_or]
  show (if record.object_id = "" then none else record.parentRef) = t.next record.key
  rw [AccessState.next, hlookup]
  rfl

section Runs

variable (lower : String → String) (depth : ℕ)

/-- The chains of parents stay finite when a call closes no cycle. -/
theorem ends_run_iff {s : AccessState τ} (hs : Consistent s) (h : ∀ key, Links.Ends s.next key)
    (c : AccessCall τ) :
    (∀ key, Links.Ends (c.run lower depth s).next key) ↔ ClosesNoCycle lower s c := by
  have hsame : ∀ {s' : AccessState τ}, s'.next = s.next → ∀ key, Links.Ends s'.next key := by
    intro s' hs' key
    exact hs' ▸ h key
  have hshrunk : ∀ {s' : AccessState τ}, Shrunk s s' → ∀ key, Links.Ends s'.next key :=
    fun hs' key => (h key).mono (hs'.next hs)
  cases callEffect_run lower depth c hs with
  | hydrated hreads hs' =>
    apply iff_of_true (hsame hs'.next_eq)
    cases c with
    | authorizeObject => exact fun hclaim => absurd hclaim hreads
    | _ => trivial
  | @claimed object_type object_id principal action request_id allow_claim ptype pid now s' hclaim hwritten =>
    have hnone : s.next (objectKey lower object_type object_id) = none := by
      rw [AccessState.next, if_neg hclaim.2.1, hclaim.2.2]
      rfl
    have hnext := hwritten.next_eq
    rw [claimedRecord_key] at hnext
    have hid : (claimedRecord (objectKey lower object_type object_id)
        (AccessCall.authorizeArgs lower principal action request_id allow_claim ptype pid now)).object_id
          ≠ "" := hclaim.2.1
    rw [if_neg hid] at hnext
    show (∀ key, Links.Ends (AccessState.next _) key) ↔ (Claims _ _ _ → _)
    rw [hnext]
    cases hparent : (claimedRecord (objectKey lower object_type object_id)
        (AccessCall.authorizeArgs lower principal action request_id allow_claim ptype pid
          now)).parentRef with
    | none =>
      rw [update_eq_self_iff.mpr hnone.symm]
      exact iff_of_true h nofun
    | some parent =>
      rw [Links.ends_update_iff h hnone]
      constructor
      · rintro hnot - p hp
        cases hp
        exact hnot
      · exact fun hall => hall hclaim parent rfl
  | delegated hdelegated => exact iff_true_intro (hsame hdelegated.next_eq)
  | revoked hrevoked => exact iff_true_intro (hsame hrevoked.next_eq)
  | removed object_type object_id cascade =>
    exact iff_true_intro (hshrunk (removeObjectAccess_shrunk ..))
  | restarted => exact iff_true_intro (hshrunk (shrunk_restart s))

/-- A call as a step of a run. -/
def accessStep (s : AccessState τ) (c : AccessCall τ) : Option (AccessState τ) :=
  some (c.run lower depth s)

/-- **Termination in runs**: authorization terminates for every object and caller in every state of a
run exactly when no claim closes a cycle. -/
theorem terminates_iff_closesNoCycle [Inhabited τ] (persistent : Bool) (calls : List (AccessCall τ)) :
    Run.Always (accessStep lower depth) (init τ persistent) calls
        (fun s => ∀ key, Terminates s key) ↔
      Run.EachStep (accessStep lower depth) (init τ persistent) calls
        (ClosesNoCycle lower) := by
  have someone : AuthorizeArgs τ :=
    { principal := ⟨"", "", [], false, false⟩, action := "", request_id := "", now := default }
  have hends : ∀ s : AccessState τ, (∀ key, Terminates s key) ↔ ∀ key, Links.Ends s.next key :=
    fun s => forall_congr' fun key => terminates_iff_ends someone
  apply Run.always_iff_eachStep (I := Consistent) (Consistent.init persistent)
  · rintro s c _ hs ⟨⟩
    exact hs.run lower depth c
  · refine (hends _).mpr fun key => Links.ends_iff.mpr fun parent hparent => ?_
    unfold AccessState.next at hparent
    split at hparent
    · cases hparent
    · cases persistent <;> cases hparent
  · rintro s c _ hs hterm ⟨⟩
    rw [hends] at hterm ⊢
    exact ends_run_iff lower depth hs hterm c

end Runs

/-- An object that is claimed with itself as its parent. -/
theorem not_terminates_ownParent :
    ¬ Run.Always (accessStep id 0) (init ℕ false)
      [.authorizeObject "session" "s" ⟨"p", "p", [], true, false⟩ "create" "r" true "session" "s" 0]
      (fun s => ∀ key, Terminates s key) := by
  intro h
  have hterm := h _ List.prefix_rfl _ rfl (objectKey id "session" "s")
  have hends := (terminates_iff_ends (⟨⟨"p", "p", [], true, false⟩, "", "", false, ⟨"", ""⟩, 0⟩)).mp hterm
  exact hends.not_leads _ rfl (.refl _)

end ZapTrace
