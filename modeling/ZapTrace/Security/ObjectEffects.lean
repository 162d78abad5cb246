import ZapTrace.Security.Objects

/-!
# What the object operations do to the records

An authorization that does not claim its object only fills the memory from the durable table: the
record that is found for an object stays the same. Besides that there are claims, changes of delegates,
removals and restarts.

## Main results

* `authorizeObject_hydrated`, `authorizeObject_of_claims`: the two effects of an authorization
* `delegateObjectAccess_cases`, `revokeObjectAccess_cases`: the two effects of a delegation
* `callEffect_run`: every call has one of the effects
-/

namespace ZapTrace

open Option hiding bind get get_bind pure_apply
open AccessTable Prog Dict AccessState

variable {τ : Type}

namespace AccessState

/-- The durable record of an object. -/
def durable (s : AccessState τ) (key : ObjectKey) : Option (ObjectAccessRecord τ) :=
  s.store.bind fun t => t.get? key

/-- The record that is found for an object: that in memory, and else the durable one. -/
def lookup (s : AccessState τ) (key : ObjectKey) : Option (ObjectAccessRecord τ) :=
  (s.cache.get? key).or (s.durable key)

end AccessState

/-- The memory was filled from the durable table. -/
structure Hydrated (s s' : AccessState τ) : Prop where
  store : s'.store = s.store
  cache : ∀ key, s'.cache.get? key = s.cache.get? key ∨
    s.cache.get? key = none ∧ s'.cache.get? key = s.durable key

namespace Hydrated

variable {s s' s'' : AccessState τ}

@[refl] theorem refl (s : AccessState τ) : Hydrated s s := ⟨rfl, fun _ => .inl rfl⟩

theorem durable_eq (h : Hydrated s s') : s'.durable = s.durable := by
  ext key
  rw [durable, h.store, durable]

theorem trans (h : Hydrated s s') (h' : Hydrated s' s'') : Hydrated s s'' := by
  refine ⟨h'.store.trans h.store, fun key => ?_⟩
  rcases h'.cache key with heq | ⟨hnone, heq⟩
  · rw [heq]
    exact h.cache key
  · rw [h.durable_eq] at heq
    rcases h.cache key with heq' | ⟨hnone', -⟩
    · exact .inr ⟨heq' ▸ hnone, heq⟩
    · exact .inr ⟨hnone', heq⟩

theorem lookup_eq (h : Hydrated s s') : s'.lookup = s.lookup := by
  ext key
  rw [AccessState.lookup, h.durable_eq, AccessState.lookup]
  rcases h.cache key with heq | ⟨hnone, heq⟩
  · rw [heq]
  · rw [heq, hnone]
    cases s.durable key <;> rfl

theorem of_events {events : List AuthorizationEvent} (h : Hydrated s s') :
    Hydrated s { s' with events := events } :=
  ⟨h.store, h.cache⟩

end Hydrated

/-! ## Lookups and events -/

/-- A look at an object finds its record, and keeps it in memory. -/
theorem getObjectAccess_spec (key : ObjectKey) (s : AccessState τ) :
    ∃ s', getObjectAccess key s = (.ok (s.lookup key), s') ∧ Hydrated s s' ∧
      s'.cache.get? key = s.lookup key := by
  rw [getObjectAccess, get_bind]
  cases hcache : s.cache.get? key with
  | some record => exact ⟨s, by simp [AccessState.lookup, hcache], .refl s, by simp [AccessState.lookup, hcache]⟩
  | none =>
    have hlookup : s.lookup key = s.store.bind fun t => t.get? key := by
      simp [AccessState.lookup, hcache, durable]
    rw [hlookup]
    cases hstore : s.store.bind fun t => t.get? key with
    | none => exact ⟨s, rfl, .refl s, hcache⟩
    | some record =>
      refine ⟨{ s with cache := s.cache.set key record }, rfl, ⟨rfl, fun k => ?_⟩, ?_⟩
      · by_cases hk : k = key
        · rw [hk]
          exact .inr ⟨hcache, by rw [get?_set_self, durable, hstore]⟩
        · exact .inl (get?_set_of_ne _ _ hk)
      · exact get?_set_self ..

/-- A program that only fills the memory. -/
abbrev Hydrates {α : Type} (m : AccessOp τ α) : Prop :=
  ∀ s, Prog.Triple (Hydrated s) m (fun _ => Hydrated s) fun _ => Hydrated s

theorem recordAuthorizationEvent_hydrates (principal : RequestPrincipal) (key : ObjectKey)
    (action decision reason request_id : String) :
    Hydrates (recordAuthorizationEvent principal key action decision reason request_id : AccessOp τ Unit) :=
  fun _ _ h => h.of_events

theorem getObjectAccess_hydrates (key : ObjectKey) :
    Hydrates (getObjectAccess key : AccessOp τ (Option (ObjectAccessRecord τ))) := by
  intro s t h
  obtain ⟨t', hget, hhydrated, -⟩ := getObjectAccess_spec key t
  rw [hget]
  exact h.trans hhydrated

theorem denyAccess_hydrates {α : Type} (key : ObjectKey) (args : AuthorizeArgs τ)
    (reason message : String) : Hydrates (denyAccess key args reason message : AccessOp τ α) :=
  fun s => Prog.Triple.bind (recordAuthorizationEvent_hydrates _ _ _ _ _ _ s) fun _ _ h => h

theorem denyAccess_spec {α : Type} (key : ObjectKey) (args : AuthorizeArgs τ) (reason message : String)
    (s : AccessState τ) :
    ∃ e s', (denyAccess key args reason message : AccessOp τ α) s = (.error e, s') ∧ Hydrated s s' :=
  ⟨_, _, rfl, (Hydrated.refl s).of_events⟩

theorem decideAccess_hydrates (key : ObjectKey) (args : AuthorizeArgs τ) (record : ObjectAccessRecord τ)
    (decision : Bool × String) : Hydrates (decideAccess key args record decision) := by
  refine fun s => Prog.Triple.bind (recordAuthorizationEvent_hydrates _ _ _ _ _ _ s) fun _ => ?_
  split <;> exact fun _ h => h

theorem parentAccessDecision_hydrates
    {authorizeParent : ObjectKey → AuthorizeArgs τ → AccessOp τ (ObjectAccessRecord τ)}
    (hparent : ∀ key args, args.allow_claim = false → Hydrates (authorizeParent key args))
    (record : ObjectAccessRecord τ) (args : AuthorizeArgs τ) (direct : Bool × String) :
    Hydrates (parentAccessDecision authorizeParent record args direct) := by
  intro s
  unfold parentAccessDecision
  cases record.parentRef with
  | none => exact fun _ h => h
  | some parent =>
    refine Prog.Triple.tryExcept (Prog.Triple.bind (hparent parent _ rfl s) fun _ _ h => h) ?_ ?_
    · exact fun _ _ _ h => h
    · exact fun _ _ _ h => h

/-! ## Authorization -/

/-- An authorization of the object claims it. -/
def Claims (s : AccessState τ) (key : ObjectKey) (args : AuthorizeArgs τ) : Prop :=
  args.allow_claim = true ∧ key.object_id ≠ "" ∧ s.lookup key = none

variable {s : AccessState τ} {key : ObjectKey} {args : AuthorizeArgs τ} {depth : ℕ}

theorem authorizeObject_of_empty (hid : key.object_id = "") : authorizeObject (depth + 1) key args =
    denyAccess key args "empty object identifier" "object identifier is required" := if_pos hid

theorem authorizeObject_of_none (hid : key.object_id ≠ "") (hlookup : s.lookup key = none)
    (hclaim : args.allow_claim ≠ true) :
    authorizeObject (depth + 1) key args s =
      denyAccess key args "object is not registered for this principal" targetObjectDenied
        (getObjectAccess key s).2 := by
  obtain ⟨t, hget, -, -⟩ := getObjectAccess_spec key s
  rw [authorizeObject, if_neg hid, bind_of_ok hget, hlookup, hget]
  exact congrFun (if_neg hclaim) t

theorem authorizeObject_of_some {record : ObjectAccessRecord τ} (hid : key.object_id ≠ "")
    (hlookup : s.lookup key = some record) :
    authorizeObject (depth + 1) key args s =
      (do
        let decision ← parentAccessDecision (authorizeObject depth) record args
          (directAccessDecision record args.principal)
        decideAccess key args record decision) (getObjectAccess key s).2 := by
  obtain ⟨t, hget, -, -⟩ := getObjectAccess_spec key s
  rw [authorizeObject, if_neg hid, bind_of_ok hget, hlookup, hget]

/-- **An authorization that claims nothing** only fills the memory. -/
theorem authorizeObject_hydrated (h : ¬ Claims s key args) :
    Hydrated s (authorizeObject depth key args s).2 := by
  induction depth generalizing key args s with
  | zero => exact .refl s
  | succ depth ih =>
    by_cases hid : key.object_id = ""
    · rw [authorizeObject_of_empty hid]
      exact (denyAccess_hydrates _ _ _ _ s).snd (.refl s)
    have hhydrated := (getObjectAccess_hydrates key s).snd (.refl s)
    cases hlookup : s.lookup key with
    | none =>
      rw [authorizeObject_of_none hid hlookup fun hclaim => h ⟨hclaim, hid, hlookup⟩]
      exact (denyAccess_hydrates _ _ _ _ s).snd hhydrated
    | some record =>
      rw [authorizeObject_of_some hid hlookup]
      have hparent : ∀ parent (args : AuthorizeArgs τ), args.allow_claim = false →
          Hydrates (authorizeObject depth parent args) := by
        intro parent args hclaim s t hst
        have hhydrated : Hydrated s (authorizeObject depth parent args t).2 :=
          hst.trans (ih fun h => by simpa [hclaim] using h.1)
        rcases hauth : authorizeObject depth parent args t with ⟨_ | _, t'⟩ <;> rwa [hauth] at hhydrated
      exact (Prog.Triple.bind (parentAccessDecision_hydrates hparent record args _ s) fun decision =>
        decideAccess_hydrates key args record decision s).snd hhydrated

@[simp] theorem claimedRecord_key (key : ObjectKey) (args : AuthorizeArgs τ) :
    (claimedRecord key args).key = key := rfl

/-- **A claim** puts the record of the object into the memory and the durable table. -/
theorem authorizeObject_of_claims (depth : ℕ) (h : Claims s key args) :
    (authorizeObject (depth + 1) key args s).1 = .ok (claimedRecord key args) ∧
    (authorizeObject (depth + 1) key args s).2.cache = s.cache.set key (claimedRecord key args) ∧
    (authorizeObject (depth + 1) key args s).2.store = s.store.map fun t =>
      t.set key (claimedRecord key args) := by
  obtain ⟨hclaim, hid, hlookup⟩ := h
  obtain ⟨hcache, hdurable⟩ := or_eq_none_iff.mp hlookup
  have hget : getObjectAccess key s = (.ok none, s) := by
    rw [getObjectAccess, get_bind, hcache]
    simp only
    rw [show (s.store.bind fun t => t.get? key) = none from hdurable]
    rfl
  rw [authorizeObject, if_neg hid, bind_of_ok hget]
  simp only [hclaim, if_true, claimObject, persistObjectAccess, recordAuthorizationEvent,
    modify_bind, pure_apply, true_and]
  cases hstore : s.store with
  | none => rfl
  | some t =>
    -- the durable table has no row for the object, whose time of creation it would keep
    have hrow : t.get? key = none := by simpa [durable, hstore] using hdurable
    simp only [map_some, upsertObjectAccess, claimedRecord_key, hrow]

theorem authorizeObject_of_lookup_none (depth : ℕ) (args : AuthorizeArgs τ) (hlookup : s.lookup key = none)
    (hclaim : args.allow_claim = false) :
    ∃ e s', authorizeObject depth key args s = (.error e, s') ∧ Hydrated s s' := by
  cases depth with
  | zero => exact ⟨_, s, rfl, .refl s⟩
  | succ depth =>
    by_cases hid : key.object_id = ""
    · rw [authorizeObject_of_empty hid]
      exact denyAccess_spec key args _ _ s
    · rw [authorizeObject_of_none hid hlookup (by simp [hclaim])]
      obtain ⟨e, t', hdeny, hhydrated⟩ := denyAccess_spec (α := ObjectAccessRecord τ) key args
        "object is not registered for this principal" targetObjectDenied (getObjectAccess key s).2
      exact ⟨e, t', hdeny, ((getObjectAccess_hydrates key s).snd (.refl s)).trans hhydrated⟩

/-! ## Writes -/

/-- A record was written under its key, in memory and, where there is one, in the durable table. -/
structure RecordWritten (record : ObjectAccessRecord τ) (s s' : AccessState τ) : Prop where
  cache : s'.cache = s.cache.set record.key record
  durable : s'.durable = fun key =>
    if key = record.key then s.store.map fun _ => record else s.durable key
  store : s'.store.isSome = s.store.isSome
variable {record : ObjectAccessRecord τ}

theorem RecordWritten.lookup_eq {s s' : AccessState τ} (h : RecordWritten record s s') :
    s'.lookup = Function.update s.lookup record.key (some record) := by
  ext key
  rw [AccessState.lookup, h.cache, h.durable, get?_set]
  by_cases hkey : key = record.key
  · subst hkey
    simp
  · simp [hkey, AccessState.lookup]

/-- What all operations keep: records stand under their own keys, and the memory and the durable table
do not differ where both have a record. -/
structure Consistent (s : AccessState τ) : Prop where
  cache_key : ∀ key record, s.cache.get? key = some record → record.key = key
  durable_key : ∀ key record, s.durable key = some record → record.key = key
  agree : ∀ key record record', s.cache.get? key = some record → s.durable key = some record' →
    record = record'

/-- Records were taken out. -/
structure Shrunk (s s' : AccessState τ) : Prop where
  cache : ∀ key record, s'.cache.get? key = some record → s.cache.get? key = some record
  durable : ∀ key record, s'.durable key = some record → s.durable key = some record
  store : s'.store.isSome = s.store.isSome

namespace Consistent

variable {s s' : AccessState τ}

theorem hydrated (h : Consistent s) (hs' : Hydrated s s') : Consistent s' := by
  have hcache : ∀ key record, s'.cache.get? key = some record →
      s.cache.get? key = some record ∨ s.durable key = some record := by
    intro key record hr
    rcases hs'.cache key with heq | ⟨-, heq⟩
    · exact .inl (heq ▸ hr)
    · exact .inr (heq ▸ hr)
  constructor
  · intro key record hr
    rcases hcache key record hr with hr | hr
    · exact h.cache_key key record hr
    · exact h.durable_key key record hr
  · intro key record hr
    rw [hs'.durable_eq] at hr
    exact h.durable_key key record hr
  · intro key record record' hr hr'
    rw [hs'.durable_eq] at hr'
    rcases hcache key record hr with hr | hr
    · exact h.agree key record record' hr hr'
    · exact some.inj (hr.symm.trans hr')

theorem shrunk (h : Consistent s) (hs' : Shrunk s s') : Consistent s' where
  cache_key key record hr := h.cache_key key record (hs'.cache key record hr)
  durable_key key record hr := h.durable_key key record (hs'.durable key record hr)
  agree key record record' hr hr' :=
    h.agree key record record' (hs'.cache key record hr) (hs'.durable key record' hr')

theorem written (h : Consistent s) {record : ObjectAccessRecord τ}
    (hs' : RecordWritten record s s') : Consistent s' := by
  have hdurable : ∀ key row, s'.durable key = some row →
      key = record.key ∧ row = record ∨ key ≠ record.key ∧ s.durable key = some row := by
    intro key row hrow
    rw [hs'.durable] at hrow
    by_cases hkey : key = record.key
    · simp only [hkey, if_true, map_eq_some_iff] at hrow
      obtain ⟨_, -, rfl⟩ := hrow
      exact .inl ⟨hkey, rfl⟩
    · exact .inr ⟨hkey, by simpa [hkey] using hrow⟩
  constructor
  · intro key r hr
    rw [hs'.cache, get?_set] at hr
    split at hr
    · rename_i hkey
      cases hr
      exact hkey.symm
    · exact h.cache_key key r hr
  · intro key row hrow
    rcases hdurable key row hrow with ⟨hkey, rfl⟩ | ⟨-, hrow⟩
    · exact hkey.symm
    · exact h.durable_key key row hrow
  · intro key r row hr hrow
    rw [hs'.cache, get?_set] at hr
    rcases hdurable key row hrow with ⟨hkey, rfl⟩ | ⟨hkey, hrow⟩
    · rw [if_pos hkey] at hr
      cases hr
      rfl
    · rw [if_neg hkey] at hr
      exact h.agree key r row hr hrow

end Consistent

theorem written_of_claims (depth : ℕ) (h : Claims s key args) :
    RecordWritten (claimedRecord key args) s (authorizeObject (depth + 1) key args s).2 := by
  obtain ⟨-, hcache, hstore⟩ := authorizeObject_of_claims depth h
  refine ⟨hcache, funext fun k => ?_, by rw [hstore, isSome_map]⟩
  rw [durable, hstore, durable, claimedRecord_key]
  cases s.store with
  | none => simp
  | some t => simp [get?_set]

theorem recordWritten_of_delegates {delegates : Finset String} {s s' : AccessState τ} (hs : Consistent s)
    (hrecord : s.cache.get? record.key = some record)
    (hcache : s'.cache = s.cache.set record.key { record with delegates := delegates })
    (hstore : s'.store = s.store.map fun table => upsertObjectAccess table { record with delegates := delegates }) :
    RecordWritten { record with delegates := delegates } s s' := by
  refine ⟨hcache, funext fun k => ?_, by rw [hstore, isSome_map]⟩
  rw [durable, hstore]
  cases htable : s.store with
  | none => simp [durable, htable]
  | some table =>
    have hdurable : s.durable = table.get? := by
      ext
      simp [durable, htable]
    -- a row that is there agrees with the record, and so do the times of creation
    have hupsert : upsertObjectAccess table { record with delegates := delegates } =
        table.set record.key { record with delegates := delegates } := by
      unfold upsertObjectAccess
      split
      · rename_i row hrow
        obtain rfl := hs.agree record.key record row hrecord (hdurable ▸ hrow)
        rfl
      · rfl
    rw [hdurable]
    simp only [map_some, bind_some, hupsert]
    exact get?_set ..

/-! ## Removals -/

theorem Shrunk.refl (s : AccessState τ) : Shrunk s s := ⟨fun _ _ h => h, fun _ _ h => h, rfl⟩

theorem Shrunk.trans {s s' s'' : AccessState τ} (h : Shrunk s s') (h' : Shrunk s' s'') : Shrunk s s'' :=
  ⟨fun k r hr => h.cache k r (h'.cache k r hr), fun k r hr => h.durable k r (h'.durable k r hr),
    h'.store.trans h.store⟩

theorem shrunk_restart (s : AccessState τ) : Shrunk s { store := s.store } := by
  refine ⟨fun _ _ h => ?_, fun _ _ h => h, rfl⟩
  cases h

/-- What is found after records were taken out was found before. -/
theorem Shrunk.lookup {s s' : AccessState τ} (hs : Consistent s) (h : Shrunk s s') {key : ObjectKey}
    {record : ObjectAccessRecord τ} (hrecord : s'.lookup key = some record) :
    s.lookup key = some record := by
  rw [AccessState.lookup]
  rcases or_eq_some_iff.mp hrecord with hcache | ⟨-, hdurable⟩
  · rw [h.cache key record hcache]
    rfl
  · -- a record that is left in the durable table only may have been in memory as well
    have hdurable := h.durable key record hdurable
    cases hcache : s.cache.get? key with
    | none => rw [hdurable, none_or]
    | some old => rw [hs.agree key old record hcache hdurable, some_or]

theorem get?_deleteObjectAccess {table : Dict ObjectKey (ObjectAccessRecord τ)} {key k : ObjectKey}
    {cascade : Bool} {record : ObjectAccessRecord τ}
    (h : (deleteObjectAccess table key cascade).get? k = some record) :
    table.get? k = some record := by
  unfold deleteObjectAccess at h
  split at h
  · rw [Links.get?_deleteLinked, Links.cut_eq_some_iff] at h
    exact h.1
  · rw [get?_erase] at h
    split at h
    · cases h
    · exact h

/-- The first part of a removal: the record goes, and so do rows of the durable table. -/
def removeOne (cascade : Bool) (key : ObjectKey) (s : AccessState τ) : AccessState τ :=
  { s with
    cache := s.cache.erase key
    store := s.store.map fun t => deleteObjectAccess t key cascade }

theorem removeObjectAccess_succ (cascade : Bool) (depth : ℕ) (key : ObjectKey) (s : AccessState τ) :
    removeObjectAccess cascade (depth + 1) key s =
      if cascade then
        (Links.children (fun record => some record.parentKey) (removeOne cascade key s).cache key).foldl
          (fun s child => removeObjectAccess cascade depth child s) (removeOne cascade key s)
      else removeOne cascade key s := rfl

theorem removeOne_shrunk (cascade : Bool) (key : ObjectKey) (s : AccessState τ) :
    Shrunk s (removeOne cascade key s) := by
  refine ⟨fun k r hr => ?_, fun k r hr => ?_, by rw [removeOne, isSome_map]⟩
  · rw [removeOne, get?_erase] at hr
    split at hr
    · cases hr
    · exact hr
  · rw [durable, removeOne] at hr
    rw [durable]
    cases hstore : s.store with
    | none => simp [hstore] at hr
    | some t =>
      simp only [hstore, map_some, bind_some] at hr
      exact get?_deleteObjectAccess hr

theorem removeObjectAccess_shrunk (cascade : Bool) (depth : ℕ) (key : ObjectKey) (s : AccessState τ) :
    Shrunk s (removeObjectAccess cascade depth key s) := by
  induction depth generalizing key s with
  | zero => exact .refl s
  | succ depth ih =>
    have hfold : ∀ (children : List ObjectKey) (t : AccessState τ), Shrunk t
        (children.foldl (fun s child => removeObjectAccess cascade depth child s) t) := by
      intro children
      induction children with
      | nil => exact .refl
      | cons c cs ihcs => exact fun t => (ih c t).trans (ihcs _)
    rw [removeObjectAccess_succ]
    split
    · exact (removeOne_shrunk cascade key s).trans (hfold _ _)
    · exact removeOne_shrunk cascade key s

/-! ## Calls -/

/-- A call that does more than fill the memory whatever it finds: a claim, a removal or a restart. -/
def AccessCall.Rewrites (lower : String → String) (s : AccessState τ) : AccessCall τ → Prop
  | .authorizeObject object_type object_id principal action request_id allow_claim parent_object_type
      parent_object_id now =>
    Claims s (objectKey lower object_type object_id)
      (authorizeArgs lower principal action request_id allow_claim parent_object_type parent_object_id now)
  | .removeObjectAccess _ _ _ | .restart => True
  | .getObjectAccess _ _ | .delegateObjectAccess _ _ _ | .revokeObjectAccess _ _ _ => False

/-- The record that is found for an object was written with other delegates. -/
def RedelegatedBy (write : Finset String → Finset String) (key : ObjectKey) (s s' : AccessState τ) : Prop :=
  ∃ t record, Hydrated s t ∧ t.cache.get? key = some record ∧ record.key = key ∧
    RecordWritten { record with delegates := write record.delegates } t s'

inductive CallEffect (lower : String → String) (s : AccessState τ) :
    AccessCall τ → AccessState τ → Prop
  | hydrated {c : AccessCall τ} {s' : AccessState τ} (hreads : ¬ c.Rewrites lower s) (h : Hydrated s s') :
    CallEffect lower s c s'
  | claimed {object_type object_id : String} {principal : RequestPrincipal} {action request_id : String}
      {allow_claim : Bool} {parent_object_type parent_object_id : String} {now : τ}
      {s' : AccessState τ}
      (hclaim : Claims s (objectKey lower object_type object_id)
        (AccessCall.authorizeArgs lower principal action request_id allow_claim parent_object_type
          parent_object_id now))
      (h : RecordWritten (claimedRecord (objectKey lower object_type object_id)
        (AccessCall.authorizeArgs lower principal action request_id allow_claim parent_object_type
          parent_object_id now)) s s') :
    CallEffect lower s (.authorizeObject object_type object_id principal action request_id allow_claim
      parent_object_type parent_object_id now) s'
  | delegated {object_type object_id : String} {args : DelegateArgs τ} {s' : AccessState τ}
      (h : RedelegatedBy (insert (pyStrip args.delegate_principal)) (objectKey lower object_type object_id)
        s s') :
    CallEffect lower s (.delegateObjectAccess object_type object_id args) s'
  | revoked {object_type object_id : String} {args : DelegateArgs τ} {s' : AccessState τ}
      (h : RedelegatedBy (fun ds => ds.erase (pyStrip args.delegate_principal))
        (objectKey lower object_type object_id) s s') :
    CallEffect lower s (.revokeObjectAccess object_type object_id args) s'
  | removed (object_type object_id : String) (cascade : Bool) :
    CallEffect lower s (.removeObjectAccess object_type object_id cascade)
      (removeObjectAccess cascade (s.cache.keys.length + 1) (objectKey lower object_type object_id) s)
  | restarted : CallEffect lower s .restart { store := s.store }

theorem writeDelegates_cases (kind : DelegationKind) (args : DelegateArgs τ) {s t : AccessState τ} (hs : Consistent s)
    (hst : Hydrated s t) (hcache : t.cache.get? key = some record) :
    (∃ e, (writeDelegates key kind args record t).1 = .error e) ∧
        Hydrated s (writeDelegates key kind args record t).2 ∨
      (∃ changed, (writeDelegates key kind args record t).1 = .ok changed) ∧
        RedelegatedBy (kind.write (pyStrip args.delegate_principal)) key s
          (writeDelegates key kind args record t).2 := by
  unfold writeDelegates
  split
  · exact .inl ⟨⟨_, rfl⟩, hst.of_events⟩
  · split
    · exact .inl ⟨⟨_, rfl⟩, hst.of_events⟩
    · obtain rfl := (hs.hydrated hst).cache_key key record hcache
      refine .inr ⟨⟨_, rfl⟩, t, record, hst, hcache, rfl, ?_⟩
      exact recordWritten_of_delegates (hs.hydrated hst) hcache rfl rfl

theorem delegateObjectAccess_cases (depth : ℕ) (key : ObjectKey) (args : DelegateArgs τ) (hs : Consistent s) :
    (∃ e, (delegateObjectAccess depth key args s).1 = .error e) ∧
        Hydrated s (delegateObjectAccess depth key args s).2 ∨
      (∃ changed, (delegateObjectAccess depth key args s).1 = .ok changed) ∧
        RedelegatedBy (insert (pyStrip args.delegate_principal)) key s
          (delegateObjectAccess depth key args s).2 := by
  obtain ⟨t, hget, hhydrated, hcache⟩ := getObjectAccess_spec key s
  rw [delegateObjectAccess, bind_of_ok hget]
  cases hlookup : s.lookup key with
  | some record => exact writeDelegates_cases delegation args hs hhydrated (hcache.trans hlookup)
  | none =>
    -- there is no record, and authorization raises
    have hnone : t.lookup key = none := by rw [hhydrated.lookup_eq, hlookup]
    obtain ⟨e, t', hauth, hhydrated'⟩ := authorizeObject_of_lookup_none depth
      { principal := args.principal, action := "delegate", request_id := args.request_id, now := args.now }
      hnone rfl
    simp only
    rw [bind_of_error hauth]
    exact .inl ⟨⟨e, rfl⟩, hhydrated.trans hhydrated'⟩

theorem revokeObjectAccess_cases (key : ObjectKey) (args : DelegateArgs τ) (hs : Consistent s) :
    (∃ e, (revokeObjectAccess key args s).1 = .error e) ∧ Hydrated s (revokeObjectAccess key args s).2 ∨
      (∃ changed, (revokeObjectAccess key args s).1 = .ok changed) ∧
        RedelegatedBy (fun ds => ds.erase (pyStrip args.delegate_principal)) key s
          (revokeObjectAccess key args s).2 := by
  obtain ⟨t, hget, hhydrated, hcache⟩ := getObjectAccess_spec key s
  rw [revokeObjectAccess, bind_of_ok hget]
  cases hlookup : s.lookup key with
  | some record => exact writeDelegates_cases revocation args hs hhydrated (hcache.trans hlookup)
  | none => exact .inl ⟨⟨_, rfl⟩, hhydrated.of_events⟩

/-- **Every call** has one of the effects. -/
theorem callEffect_run (lower : String → String) (depth : ℕ) (c : AccessCall τ) (hs : Consistent s) :
    CallEffect lower s c (c.run lower depth s) := by
  cases c with
  | getObjectAccess object_type object_id =>
    exact .hydrated not_false ((getObjectAccess_hydrates _ s).snd (.refl s))
  | authorizeObject object_type object_id principal action request_id allow_claim ptype pid now =>
    by_cases hclaim : Claims s (objectKey lower object_type object_id)
        (AccessCall.authorizeArgs lower principal action request_id allow_claim ptype pid now)
    · exact .claimed hclaim (written_of_claims depth hclaim)
    · exact .hydrated hclaim (authorizeObject_hydrated hclaim)
  | delegateObjectAccess object_type object_id args =>
    rcases delegateObjectAccess_cases (depth + 1) (objectKey lower object_type object_id) args hs with
      ⟨-, h⟩ | ⟨-, h⟩
    · exact .hydrated not_false h
    · exact .delegated h
  | revokeObjectAccess object_type object_id args =>
    rcases revokeObjectAccess_cases (objectKey lower object_type object_id) args hs with ⟨-, h⟩ | ⟨-, h⟩
    · exact .hydrated not_false h
    · exact .revoked h
  | removeObjectAccess object_type object_id cascade => exact .removed object_type object_id cascade
  | restart => exact .restarted

/-! ## Runs -/

theorem Consistent.init (persistent : Bool) : Consistent (init τ persistent) := by
  refine ⟨nofun, fun key record hr => ?_, nofun⟩
  cases persistent <;> cases hr

theorem Consistent.run (lower : String → String) (depth : ℕ) (c : AccessCall τ) (h : Consistent s) :
    Consistent (c.run lower depth s) := by
  cases callEffect_run lower depth c h with
  | hydrated _ hs' => exact h.hydrated hs'
  | claimed _ hwritten => exact h.written hwritten
  | delegated hdelegated =>
    obtain ⟨t, record, hhydrated, -, -, hwritten⟩ := hdelegated
    exact (h.hydrated hhydrated).written hwritten
  | revoked hrevoked =>
    obtain ⟨t, record, hhydrated, -, -, hwritten⟩ := hrevoked
    exact (h.hydrated hhydrated).written hwritten
  | removed object_type object_id cascade => exact h.shrunk (removeObjectAccess_shrunk ..)
  | restarted => exact h.shrunk (shrunk_restart s)

theorem Consistent.foldl_run (lower : String → String) (depth : ℕ) (calls : List (AccessCall τ)) (h : Consistent s) :
    Consistent (calls.foldl (fun s c => c.run lower depth s) s) := by
  induction calls generalizing s with
  | nil => exact h
  | cons c calls ih => exact ih (h.run lower depth c)

theorem isSome_store_run (lower : String → String) (depth : ℕ) (c : AccessCall τ) (hs : Consistent s) :
    (c.run lower depth s).store.isSome = s.store.isSome := by
  cases callEffect_run lower depth c hs with
  | hydrated _ h => exact congrArg _ h.store
  | claimed _ hwritten => exact hwritten.store
  | delegated hdelegated =>
    obtain ⟨t, record, hhydrated, -, -, hwritten⟩ := hdelegated
    rw [hwritten.store, hhydrated.store]
  | revoked hrevoked =>
    obtain ⟨t, record, hhydrated, -, -, hwritten⟩ := hrevoked
    rw [hwritten.store, hhydrated.store]
  | removed object_type object_id cascade => exact (removeObjectAccess_shrunk ..).store
  | restarted => rfl

end ZapTrace
