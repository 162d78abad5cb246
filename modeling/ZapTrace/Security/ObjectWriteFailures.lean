import ZapTrace.Security.ObjectWrites

/-!
# What a failed write leaves of the access records

A claim, a delegation, a revocation and a removal change the records in memory before they write to the
durable table. When a write fails, the memory is what it was only if the operation had nothing to change
in it.

## Main results

* `keeps_claim_iff`, `keeps_delegateObjectAccess_iff`, `keeps_revokeObjectAccess_iff`,
  `keeps_removeObjectAccess_iff`: when a failed write leaves the records in memory as they were
-/

namespace ZapTrace.ObjectWrites

open AccessState Faulty Prog Dict

open Faulty (lift)

variable {τ α : Type}

/-- Whatever an operation does, the records in memory stay. -/
def Quiet (m : AccessOp τ α) : Prop :=
  ∀ cache, Prog.Triple (fun s => s.state.cache = cache) m (fun _ s => s.state.cache = cache)
    fun _ s => s.state.cache = cache

/-- Without persistence, no write of an operation fails. -/
def Unfailing (m : AccessOp τ α) : Prop :=
  Prog.Triple (fun s => s.state.store = none) m (fun _ s => s.state.store = none)
    fun e s => e ≠ .storage ∧ s.state.store = none

theorem Quiet.keeps {m : AccessOp τ α} (h : Quiet m) (s : AccessState τ) : Faulty.Keeps cache m s :=
  keeps_of_triple ((h s.cache).pre fun t ht => by rw [ht]) fun _ ht => ht
variable {s : AccessState τ}

theorem Unfailing.keeps {m : AccessOp τ α} (h : Unfailing m) (hs : s.store = none) :
    Faulty.Keeps cache m s :=
  keeps_of_triple (h.pre fun t ht => by rw [ht]; exact hs) fun _ ht => absurd rfl ht.1

/-! ## Writes and events -/
variable {f : AccessState τ → AccessState τ}

theorem quiet_durably (hf : ∀ s, (f s).cache = s.cache) : Quiet (durably f) := by
  intro cache
  apply Prog.Triple.get_bind
  intro s hs
  split
  · have hwrite := write_triple (f := f) (P := fun t => t.cache = cache) (Q := fun t => t.cache = cache)
      (E := fun (_ : Raised AccessError) t => t.state.cache = cache) (fun t ht => (hf t).trans ht) fun _ ht => ht
    exact hwrite.pre fun t ht => by rw [ht]; exact hs
  · exact fun t ht => by rw [ht]; exact hs

theorem quiet_persistObjectAccess (record : ObjectAccessRecord τ) : Quiet (persistObjectAccess record) :=
  quiet_durably fun _ => rfl

theorem unfailing_durably (f : AccessState τ → AccessState τ) : Unfailing (durably f) := by
  apply Prog.Triple.get_bind
  intro s hs
  rw [hs, Option.isSome_none, if_neg Bool.false_ne_true]
  exact fun t ht => by rw [ht]; exact hs

theorem quiet_recordAuthorizationEvent (principal : RequestPrincipal) (key : ObjectKey)
    (action decision reason request_id : String) :
    Quiet (recordAuthorizationEvent (τ := τ) principal key action decision reason request_id) := by
  intro cache
  have hevent : Prog.Triple (fun s : AccessState τ => s.cache = cache)
      (ZapTrace.recordAuthorizationEvent principal key action decision reason request_id)
      (fun _ s => s.cache = cache) fun _ s => s.cache = cache := fun _ hs => hs
  exact Prog.Triple.bind (lift_triple hevent fun _ _ hs => hs) fun _ => quiet_durably (fun _ => rfl) cache

theorem unfailing_lift {m : Prog (AccessState τ) AccessError α} (h : ∀ s, (m s).2.store = s.store) :
    Unfailing (lift m) := by
  have htriple : Prog.Triple (fun s => s.store = none) m (fun _ s => s.store = none) fun _ s => s.store = none := by
    apply Prog.Triple.intro
    · intro s hs a t hm
      have hstore := h s
      rw [hm] at hstore
      exact hstore.trans hs
    · intro s hs e t hm
      have hstore := h s
      rw [hm] at hstore
      exact hstore.trans hs
  exact lift_triple htriple fun e s hs => ⟨nofun, hs⟩

theorem unfailing_recordAuthorizationEvent (principal : RequestPrincipal) (key : ObjectKey)
    (action decision reason request_id : String) :
    Unfailing (recordAuthorizationEvent (τ := τ) principal key action decision reason request_id) :=
  Prog.Triple.bind (unfailing_lift fun _ => rfl) fun _ => unfailing_durably id

theorem quiet_raise (e : AccessError) : Quiet (raise (.refused e) : AccessOp τ α) := fun _ _ hs => hs

theorem unfailing_pure (a : α) : Unfailing (pure a : AccessOp τ α) := fun _ hs => hs

theorem durably_fails (hs : s.store.isSome = true) (rest : List Bool) :
    durably f ⟨s, true :: rest⟩ = (.error .storage, ⟨s, rest⟩) := by
  simp [durably, hs, Faulty.write]

theorem durably_succeeds (hs : s.store.isSome = true) (rest : List Bool) :
    durably f ⟨s, false :: rest⟩ = (.ok (), ⟨f s, rest⟩) := by
  simp [durably, hs, Faulty.write]

theorem recordAuthorizationEvent_fails (hs : s.store.isSome = true) (principal : RequestPrincipal) (key : ObjectKey)
    (action decision reason request_id : String) :
    ∃ s', recordAuthorizationEvent principal key action decision reason request_id ⟨s, [true]⟩ =
      (.error .storage, s') ∧ s'.state.cache = s.cache := by
  have hlift : ∃ t : AccessState τ, lift (ZapTrace.recordAuthorizationEvent principal key action decision reason
      request_id) ⟨s, [true]⟩ = (.ok (), ⟨t, [true]⟩) ∧ t.cache = s.cache ∧ t.store = s.store := ⟨_, rfl, rfl, rfl⟩
  obtain ⟨t, ht, hcache, hstore⟩ := hlift
  exact ⟨⟨t, []⟩, (bind_of_ok ht).trans (durably_fails (hstore ▸ hs) []), hcache⟩

/-! ## Claims -/
variable {key : ObjectKey}

theorem cache_get?_of_lookup_none (h : s.lookup key = none) : s.cache.get? key = none := by
  rw [lookup] at h
  cases hcache : s.cache.get? key with
  | none => rfl
  | some record => simp [hcache] at h

theorem getObjectAccess_of_lookup_none (h : s.lookup key = none) : getObjectAccess key s = (.ok none, s) := by
  have hcache := cache_get?_of_lookup_none h
  have hdurable : (s.store.bind fun t => t.get? key) = none := by
    rw [lookup, hcache] at h
    exact h
  rw [getObjectAccess, get_bind, hcache]
  dsimp only
  rw [hdurable]
  rfl

/-- A claim whose write fails has put the record into the memory. -/
theorem keeps_claim_iff (depth : ℕ) {args : AuthorizeArgs τ} (h : Claims s key args) :
    Faulty.Keeps cache (authorizeObject (depth + 1) key args) s ↔ s.store = none := by
  have hauthorize : ∀ failures, authorizeObject (depth + 1) key args ⟨s, failures⟩ =
      claimObject key args ⟨s, failures⟩ := by
    intro failures
    rw [authorizeObject, if_neg h.2.1]
    rw [bind_of_ok (lift_of_ok (s := ⟨s, failures⟩) (getObjectAccess_of_lookup_none h.2.2))]
    dsimp only
    rw [if_pos h.1]
  have hkeeps : Faulty.Keeps cache (authorizeObject (depth + 1) key args) s ↔
      Faulty.Keeps cache (claimObject key args) s := by
    simp only [Faulty.Keeps, hauthorize]
  rw [hkeeps]
  constructor
  · intro hkeep
    by_contra hstore
    have hsome : s.store.isSome = true := Option.isSome_iff_ne_none.mpr hstore
    have hfail : claimObject key args ⟨s, [true]⟩ =
        (.error .storage, ⟨{ s with cache := s.cache.set key (claimedRecord key args) }, []⟩) := by
      simp [claimObject, persistObjectAccess, durably, Faulty.write, Faulty.lift, mapError, onState,
        bind_apply, hsome]
    refine not_keeps [true] hfail ?_ hkeep
    intro hcache
    have hget := set_eq_self_iff.mp hcache
    rw [cache_get?_of_lookup_none h.2.2] at hget
    cases hget
  · intro hstore
    apply Unfailing.keeps _ hstore
    exact Prog.Triple.bind (unfailing_lift fun _ => rfl) fun _ => Prog.Triple.bind (unfailing_durably _) fun _ =>
      Prog.Triple.bind (unfailing_recordAuthorizationEvent _ _ _ _ _ _) fun _ => unfailing_pure _

/-! ## Delegations and revocations -/

/-- A delegation or a revocation goes through: the caller may make it, and names a principal. -/
def Writes (args : DelegateArgs τ) (record : ObjectAccessRecord τ) : Prop :=
  (args.principal.isAdmin = true ∨ args.principal.principal_id = record.owner_principal) ∧
    pyStrip args.delegate_principal ≠ ""

/-- The record that a delegation or a revocation writes. -/
def redelegated (kind : DelegationKind) (args : DelegateArgs τ) (record : ObjectAccessRecord τ) :
    ObjectAccessRecord τ :=
  { record with delegates := kind.write (pyStrip args.delegate_principal) record.delegates }
variable {args : DelegateArgs τ} {kind : DelegationKind} {record : ObjectAccessRecord τ}

theorem redelegated_eq_self_iff :
    redelegated kind args record = record ↔
      kind.write (pyStrip args.delegate_principal) record.delegates = record.delegates := by
  constructor
  · intro h
    exact congrArg ObjectAccessRecord.delegates h
  · intro h
    rw [redelegated, h]

theorem quiet_writeDelegates (h : ¬ Writes args record) : Quiet (writeDelegates key kind args record) := by
  intro cache
  unfold writeDelegates
  split
  · exact Prog.Triple.bind (quiet_recordAuthorizationEvent _ _ _ _ _ _ cache) fun _ => quiet_raise _ cache
  · rename_i howner
    split
    · exact Prog.Triple.bind (quiet_recordAuthorizationEvent _ _ _ _ _ _ cache) fun _ => quiet_raise _ cache
    · rename_i hblank
      refine absurd ⟨?_, hblank⟩ h
      by_contra hnone
      rw [not_or] at hnone
      exact howner ⟨by simpa using hnone.1, hnone.2⟩

theorem writeDelegates_of_writes (h : Writes args record) :
    writeDelegates key kind args record = (do
      lift (modify fun s => { s with cache := s.cache.set key (redelegated kind args record) })
      persistObjectAccess (redelegated kind args record)
      recordAuthorizationEvent args.principal record.key kind.action "allow"
        (kind.reason ++ pyStrip args.delegate_principal) args.request_id
      pure (redelegated kind args record)) := by
  have howner : ¬ ((!args.principal.isAdmin) = true ∧ args.principal.principal_id ≠ record.owner_principal) := by
    rintro ⟨hadmin, hne⟩
    rcases h.1 with hyes | heq
    · rw [hyes] at hadmin
      cases hadmin
    · exact hne heq
  unfold writeDelegates
  rw [if_neg howner, if_neg h.2]
  rfl

theorem unfailing_writeDelegates (key : ObjectKey) (kind : DelegationKind) (args : DelegateArgs τ)
    (record : ObjectAccessRecord τ) : Unfailing (writeDelegates key kind args record) := by
  have hraise : ∀ e, Unfailing (raise (.refused e) : AccessOp τ (ObjectAccessRecord τ)) :=
    fun e s hs => ⟨nofun, hs⟩
  unfold writeDelegates
  split
  · exact Prog.Triple.bind (unfailing_recordAuthorizationEvent _ _ _ _ _ _) fun _ => hraise _
  · split
    · exact Prog.Triple.bind (unfailing_recordAuthorizationEvent _ _ _ _ _ _) fun _ => hraise _
    · exact Prog.Triple.bind (unfailing_lift fun _ => rfl) fun _ => Prog.Triple.bind (unfailing_durably _) fun _ =>
        Prog.Triple.bind (unfailing_recordAuthorizationEvent _ _ _ _ _ _) fun _ => unfailing_pure _

theorem writeDelegates_fails (key : ObjectKey) (kind : DelegationKind) (args : DelegateArgs τ)
    (record : ObjectAccessRecord τ) (hs : s.store.isSome = true) :
    ∃ s', writeDelegates key kind args record ⟨s, [true]⟩ = (.error .storage, s') ∧
      (Writes args record → s'.state.cache = s.cache.set key (redelegated kind args record)) ∧
      (¬ Writes args record → s'.state.cache = s.cache) := by
  by_cases hwrites : Writes args record
  · refine ⟨⟨{ s with cache := s.cache.set key (redelegated kind args record) }, []⟩, ?_, fun _ => rfl,
      fun h => absurd hwrites h⟩
    rw [writeDelegates_of_writes hwrites]
    simp [persistObjectAccess, durably, Faulty.write, Faulty.lift, mapError, onState,
      bind_apply, hs]
  · obtain ⟨s', hs', hcache⟩ : ∃ s', writeDelegates key kind args record ⟨s, [true]⟩ = (.error .storage, s') ∧
        s'.state.cache = s.cache := by
      unfold writeDelegates
      split
      · obtain ⟨s', hs', hcache⟩ := recordAuthorizationEvent_fails hs args.principal record.key kind.action "deny"
          ("only owner or administrator may " ++ kind.verb ++ " access") args.request_id
        exact ⟨s', bind_of_error hs', hcache⟩
      · rename_i howner
        split
        · obtain ⟨s', hs', hcache⟩ := recordAuthorizationEvent_fails hs args.principal record.key kind.action "deny"
            delegatePrincipalRequired args.request_id
          exact ⟨s', bind_of_error hs', hcache⟩
        · rename_i hblank
          refine absurd ⟨?_, hblank⟩ hwrites
          by_contra hnone
          rw [not_or] at hnone
          exact howner ⟨by simpa using hnone.1, hnone.2⟩
    exact ⟨s', hs', fun h => absurd h hwrites, fun _ => hcache⟩

/-- A delegation or a revocation has nothing to change in memory. -/
def HasNoEffect (kind : DelegationKind) (key : ObjectKey) (args : DelegateArgs τ) (s : AccessState τ) : Prop :=
  s.store = none ∨ s.lookup key = none ∨ ∃ record, s.cache.get? key = some record ∧
    (Writes args record → kind.write (pyStrip args.delegate_principal) record.delegates = record.delegates)

/-- What follows the lookup decides, when nothing is found, and otherwise the delegates are written. -/
theorem keeps_redelegation_iff {next : Option (ObjectAccessRecord τ) → AccessOp τ (ObjectAccessRecord τ)}
    (hsome : ∀ record, next (some record) = writeDelegates key kind args record)
    (hnone : s.lookup key = none → Faulty.Keeps cache (next none) s) :
    Faulty.Keeps cache (lift (getObjectAccess key) >>= next) s ↔ HasNoEffect kind key args s := by
  cases hcache : s.cache.get? key with
  | some record =>
    have hget : getObjectAccess key s = (.ok (some record), s) := by
      rw [getObjectAccess, get_bind, hcache]
      rfl
    have hlookup : s.lookup key = some record := by simp [lookup, hcache]
    have hkeeps : Faulty.Keeps cache (lift (getObjectAccess key) >>= next) s ↔
        Faulty.Keeps cache (writeDelegates key kind args record) s := by
      unfold Faulty.Keeps
      refine forall_congr' fun failures => ?_
      rw [bind_of_ok (lift_of_ok (s := ⟨s, failures⟩) hget), hsome]
    rw [hkeeps, HasNoEffect, hlookup, hcache]
    constructor
    · intro hkeep
      by_contra hnot
      rw [not_or] at hnot
      obtain ⟨hstore, heffect⟩ := hnot
      obtain ⟨s', hs', hwritten, -⟩ :=
        writeDelegates_fails key kind args record (Option.isSome_iff_ne_none.mpr hstore)
      have hwrites : Writes args record := by
        by_contra hwrites
        exact heffect (.inr ⟨record, rfl, fun h => absurd h hwrites⟩)
      have hsame := (hwritten hwrites).symm.trans (hkeep [true] s' hs')
      have hrecord := Option.some.inj ((hcache.symm.trans (set_eq_self_iff.mp hsame)))
      exact heffect (.inr ⟨record, rfl, fun _ => redelegated_eq_self_iff.mp hrecord.symm⟩)
    · rintro (hstore | hfalse | ⟨found, hfound, hsame⟩)
      · exact (unfailing_writeDelegates key kind args record).keeps hstore
      · cases hfalse
      · obtain rfl : record = found := Option.some.inj hfound
        by_cases hwrites : Writes args record
        · -- the record that is written is the one that is there
          have hset : s.cache.set key (redelegated kind args record) = s.cache := by
            rw [redelegated_eq_self_iff.mpr (hsame hwrites)]
            exact set_eq_self_iff.mpr hcache
          rw [writeDelegates_of_writes hwrites]
          refine keeps_of_triple (Q := fun _ (t : Faulty (AccessState τ)) => t.state.cache = s.cache)
            (E := fun _ (t : Faulty (AccessState τ)) => t.state.cache = s.cache) ?_ fun _ ht => ht
          refine Prog.Triple.bind (Q := fun _ (t : Faulty (AccessState τ)) => t.state.cache = s.cache) ?_ fun _ => Prog.Triple.bind
            (quiet_persistObjectAccess _ s.cache) fun _ => Prog.Triple.bind
            (quiet_recordAuthorizationEvent _ _ _ _ _ _ s.cache) fun _ t ht => ht
          intro t ht
          rw [lift_of_ok (modify_apply _ _), ht]
          exact hset
        · exact (quiet_writeDelegates hwrites).keeps s
  | none =>
    cases hlookup : s.lookup key with
    | none =>
      have hkeeps : Faulty.Keeps cache (lift (getObjectAccess key) >>= next) s ↔
          Faulty.Keeps cache (next none) s := by
        unfold Faulty.Keeps
        refine forall_congr' fun failures => ?_
        rw [bind_of_ok (lift_of_ok (s := ⟨s, failures⟩) (getObjectAccess_of_lookup_none hlookup))]
      rw [hkeeps]
      exact iff_of_true (hnone hlookup) (.inr (.inl hlookup))
    | some record =>
      -- the record comes from the durable table, and stays in memory whatever fails
      obtain ⟨s₁, hget, hhydrated, hfound⟩ := getObjectAccess_spec key s
      rw [hlookup] at hget hfound
      have hstore : s.store.isSome = true := by
        cases hs : s.store with
        | none => simp [lookup, durable, hcache, hs] at hlookup
        | some table => rfl
      refine iff_of_false ?_ ?_
      · intro hkeep
        obtain ⟨s', hs', hwritten, hrefused⟩ :=
          writeDelegates_fails key kind args record (s := s₁) (by rw [hhydrated.store]; exact hstore)
        have hrun : (lift (getObjectAccess key) >>= next) ⟨s, [true]⟩ = (.error .storage, s') := by
          rw [bind_of_ok (lift_of_ok (s := ⟨s, [true]⟩) hget), hsome]
          exact hs'
        have hsame := hkeep [true] s' hrun
        by_cases hwrites : Writes args record
        · have hthere := hwritten hwrites
          rw [hsame] at hthere
          have hentry := get?_set_self s₁.cache key (redelegated kind args record)
          rw [← hthere, hcache] at hentry
          cases hentry
        · have hthere := hrefused hwrites
          rw [hsame] at hthere
          rw [← hthere, hcache] at hfound
          cases hfound
      · rintro (hnone | hfalse | ⟨found, hfound', -⟩)
        · rw [hnone] at hstore
          cases hstore
        · rw [hlookup] at hfalse
          cases hfalse
        · rw [hcache] at hfound'
          cases hfound'

/-- A revocation whose write fails has changed the delegates in memory, unless it had nothing to change. -/
theorem keeps_revokeObjectAccess_iff :
    Faulty.Keeps cache (revokeObjectAccess key args) s ↔ HasNoEffect revocation key args s := by
  refine keeps_redelegation_iff (fun _ => rfl) fun _ => Quiet.keeps (fun cache => ?_) s
  exact Prog.Triple.bind (quiet_recordAuthorizationEvent _ _ _ _ _ _ cache) fun _ => quiet_raise _ cache

theorem quiet_denyAccess {args : AuthorizeArgs τ} {reason message : String} :
    Quiet (denyAccess (α := α) key args reason message) := fun cache =>
  Prog.Triple.bind (quiet_recordAuthorizationEvent _ _ _ _ _ _ cache) fun _ => quiet_raise _ cache

theorem authorizeObject_unknown (depth : ℕ) (args : AuthorizeArgs τ) (hlookup : s.lookup key = none)
    (hclaim : args.allow_claim = false) (failures : List Bool) :
    ∃ reason message, authorizeObject (depth + 1) key args ⟨s, failures⟩ =
      denyAccess key args reason message ⟨s, failures⟩ := by
  rw [authorizeObject]
  split
  · exact ⟨_, _, rfl⟩
  · rw [bind_of_ok (lift_of_ok (s := ⟨s, failures⟩) (getObjectAccess_of_lookup_none hlookup))]
    dsimp only
    rw [hclaim, if_neg Bool.false_ne_true]
    exact ⟨_, _, rfl⟩

/-- A delegation whose write fails has changed the delegates in memory, unless it had nothing to change. -/
theorem keeps_delegateObjectAccess_iff {depth : ℕ} :
    Faulty.Keeps cache (delegateObjectAccess (depth + 1) key args) s ↔ HasNoEffect delegation key args s := by
  refine keeps_redelegation_iff (fun _ => rfl) fun hlookup => ?_
  intro failures s' hrun
  obtain ⟨reason, message, hdeny⟩ := authorizeObject_unknown depth
    { principal := args.principal, action := "delegate", request_id := args.request_id, now := args.now }
    hlookup rfl failures
  rcases bind_eq_error.mp hrun with herror | ⟨record, t, hok, -⟩
  · rw [hdeny] at herror
    exact (quiet_denyAccess s.cache).of_error (s := ⟨s, failures⟩) rfl herror
  · rw [hdeny] at hok
    obtain ⟨_, _, _, hraise⟩ := bind_eq_ok.mp hok
    cases hraise

/-! ## Removals -/

theorem unfailing_removeObjectAccess (cascade : Bool) (depth : ℕ) (key : ObjectKey) :
    Unfailing (removeObjectAccess (τ := τ) cascade depth key) := by
  induction depth generalizing key with
  | zero => exact unfailing_pure ()
  | succ depth ih =>
    refine Prog.Triple.bind (unfailing_lift fun _ => rfl) fun _ => Prog.Triple.bind (unfailing_durably _) fun _ => ?_
    split
    · apply Prog.Triple.get_bind
      intro t ht
      exact (Prog.Triple.forEach (I := fun _ (t : Faulty (AccessState τ)) => t.state.store = none) (fun child _ => ih child) _).pre
        fun t' ht' => by rw [ht']; exact ht
    · exact unfailing_pure ()

theorem removeObjectAccess_fails (cascade : Bool) (depth : ℕ) (key : ObjectKey) (hs : s.store.isSome = true) :
    removeObjectAccess cascade (depth + 1) key ⟨s, [true]⟩ =
      (.error .storage, ⟨{ s with cache := s.cache.erase key }, []⟩) := by
  simp [removeObjectAccess, durably, Faulty.write, Faulty.lift, mapError, onState, bind_apply, hs]

theorem erase_ne_self {d : Dict ObjectKey (ObjectAccessRecord τ)} (h : key ∈ d.keys) : d.erase key ≠ d := by
  intro herase
  obtain ⟨record, hrecord⟩ := mem_keys_iff.mp h
  have := get?_erase d key key
  rw [herase, hrecord, if_pos rfl] at this
  cases this

/-- A removal whose write fails has taken records from the memory, unless there are none of them in it. -/
theorem keeps_removeObjectAccess_iff {cascade : Bool} :
    Faulty.Keeps cache (removeObjectAccess cascade (s.cache.keys.length + 1) key) s ↔
      s.store = none ∨ s.cache.get? key = none ∧
        (cascade = true → Links.children (fun record => some record.parentKey) s.cache key = []) := by
  constructor
  · intro hkeep
    by_contra hnot
    rw [not_or] at hnot
    obtain ⟨hstore, hmemory⟩ := hnot
    have hsome : s.store.isSome = true := Option.isSome_iff_ne_none.mpr hstore
    have hkey : s.cache.get? key = none := by
      by_contra hkey
      have hmem : key ∈ s.cache.keys := by
        by_contra hmem
        exact hkey (not_mem_keys_iff.mp hmem)
      exact not_keeps [true] (removeObjectAccess_fails cascade _ key hsome) (erase_ne_self hmem) hkeep
    have herase : s.cache.erase key = s.cache := erase_of_not_mem (not_mem_keys_iff.mpr hkey)
    refine hmemory ⟨hkey, fun hcascade => ?_⟩
    cases hchildren : Links.children (fun record => some record.parentKey) s.cache key with
    | nil => rfl
    | cons child children =>
      exfalso
      have hchild : child ∈ s.cache.keys :=
        Links.mem_keys_of_mem_children (by rw [hchildren]; exact List.mem_cons_self)
      obtain ⟨depth, hdepth⟩ : ∃ depth, s.cache.keys.length = depth + 1 :=
        Nat.exists_eq_add_one_of_ne_zero (List.length_pos_of_mem hchild).ne'
      -- the first write succeeds, and that for the first child fails
      have hrun : ∃ s', removeObjectAccess cascade (s.cache.keys.length + 1) key ⟨s, [false, true]⟩ =
          (.error .storage, s') ∧ s'.state.cache = s.cache.erase child := by
        let t : AccessState τ := { s with
          cache := s.cache.erase key
          store := s.store.map fun t => AccessTable.deleteObjectAccess t key cascade }
        have ht : t.store.isSome = true := by
          show (s.store.map _).isSome = true
          rw [Option.isSome_map]
          exact hsome
        have hfirst := durably_succeeds (f := fun s => { s with
          store := s.store.map fun t => AccessTable.deleteObjectAccess t key cascade })
          (s := { s with cache := s.cache.erase key }) hsome [true]
        have hbelow : forEach (removeObjectAccess cascade (depth + 1))
            (Links.children (fun record => some record.parentKey) t.cache key) ⟨t, [true]⟩ =
              (.error .storage, ⟨{ t with cache := t.cache.erase child }, []⟩) := by
          rw [show t.cache = s.cache from herase, hchildren]
          refine bind_of_error ((removeObjectAccess_fails cascade depth child ht).trans ?_)
          rw [show t.cache = s.cache from herase]
        refine ⟨⟨{ t with cache := t.cache.erase child }, []⟩, ?_, ?_⟩
        · rw [hdepth, removeObjectAccess, bind_of_ok (lift_of_ok (modify_apply _ _)),
            bind_of_ok hfirst, if_pos hcascade]
          exact hbelow
        · exact congrArg (fun d => erase d child) herase
      obtain ⟨s', hs', hcache⟩ := hrun
      exact not_keeps [false, true] hs' (hcache ▸ erase_ne_self hchild) hkeep
  · rintro (hstore | ⟨hkey, hchildren⟩)
    · exact (unfailing_removeObjectAccess cascade _ key).keeps hstore
    · have herase : s.cache.erase key = s.cache := erase_of_not_mem (not_mem_keys_iff.mpr hkey)
      refine keeps_of_triple (Q := fun _ (t : Faulty (AccessState τ)) => t.state.cache = s.cache)
        (E := fun _ (t : Faulty (AccessState τ)) => t.state.cache = s.cache) ?_ fun _ ht => ht
      refine Prog.Triple.bind (Q := fun _ (t : Faulty (AccessState τ)) => t.state.cache = s.cache) ?_ fun _ =>
        Prog.Triple.bind (quiet_durably ?_ s.cache) fun _ => ?_
      · intro t ht
        rw [lift_of_ok (modify_apply _ _), ht]
        exact herase
      · exact fun _ => rfl
      · split
        · rename_i hcascade
          apply Prog.Triple.get_bind
          intro t ht
          have hnone : Links.children (fun record => some record.parentKey) t.state.cache key = [] := by
            rw [show t.state.cache = s.cache from ht]
            exact hchildren hcascade
          rw [hnone]
          exact fun t' ht' => by rw [ht']; exact ht
        · exact fun t ht => ht

end ZapTrace.ObjectWrites
