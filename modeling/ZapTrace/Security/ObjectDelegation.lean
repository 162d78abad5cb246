import ZapTrace.Security.ObjectFrame

/-!
# What a delegation is worth

A delegation writes the record of one object, and authorization of an object with a parent asks for the
parent, whose record decides. So a delegate of an object without a parent may use it until a revocation
or a removal, and a delegate of another object may use it exactly when it may use the parent. A caller
who is neither the owner nor a delegate of an object of the chain is refused.

## Main results

* `granted_of_delegated`: a delegation grants until a revocation or a removal
* `refused_of_not_entitled`: who is entitled at no object of the chain is refused
* `delegation_and_revocation`: the two together, from any table that calls lead to
-/

namespace ZapTrace

open AccessState

open Links (Leads Ends)

variable {τ : Type}

/-! ## Authorization and the records -/

/-- What authorization answers depends on the records that are found. -/
theorem authorizeObject_fst_congr (depth : ℕ) (key : ObjectKey) (args : AuthorizeArgs τ)
    {s s' : AccessState τ} (h : s'.lookup = s.lookup) :
    (authorizeObject depth key args s').1 = (authorizeObject depth key args s).1 := by
  induction depth generalizing key args s s' with
  | zero => rfl
  | succ depth ih =>
    by_cases hid : key.object_id = ""
    · rw [authorizeObject_of_empty hid]
      rfl
    cases hlookup : s.lookup key with
    | none =>
      have hlookup' : s'.lookup key = none := by rw [h, hlookup]
      cases hclaim : args.allow_claim with
      | true =>
        rw [(authorizeObject_of_claims depth ⟨hclaim, hid, hlookup⟩).1,
          (authorizeObject_of_claims depth ⟨hclaim, hid, hlookup'⟩).1]
      | false =>
        rw [authorizeObject_of_none hid hlookup (by simp [hclaim]),
          authorizeObject_of_none hid hlookup' (by simp [hclaim])]
        rfl
    | some record =>
      have hlookup' : s'.lookup key = some record := by rw [h, hlookup]
      cases hparent : record.parentRef with
      | none =>
        rw [authorizeObject_of_parentRef_none depth args hid hlookup hparent,
          authorizeObject_of_parentRef_none depth args hid hlookup' hparent]
      | some parent =>
        have hhydrated := (getObjectAccess_hydrates key s).snd (.refl s)
        have hhydrated' := (getObjectAccess_hydrates key s').snd (.refl s')
        rw [authorizeObject_of_parentRef_some depth args hid hlookup hparent,
          authorizeObject_of_parentRef_some depth args hid hlookup' hparent,
          ih parent args.forParent (hhydrated'.lookup_eq.trans (h.trans hhydrated.lookup_eq.symm))]

variable {s : AccessState τ}

theorem authorizeObject_eq_ok_iff (depth : ℕ) {key parent : ObjectKey} (args : AuthorizeArgs τ)
    {record : ObjectAccessRecord τ} (hid : key.object_id ≠ "") (hlookup : s.lookup key = some record)
    (hparent : record.parentRef = some parent) (found : ObjectAccessRecord τ) :
    (authorizeObject (depth + 1) key args s).1 = .ok found ↔
      record = found ∧ ∃ r, (authorizeObject depth parent args.forParent s).1 = .ok r := by
  have hhydrated := (getObjectAccess_hydrates key s).snd (.refl s)
  rw [authorizeObject_of_parentRef_some depth args hid hlookup hparent,
    authorizeObject_fst_congr depth parent args.forParent hhydrated.lookup_eq]
  cases hauth : (authorizeObject depth parent args.forParent s).1 with
  | ok r => simp
  | error e => cases e <;> simp

/-! ## Names -/

/-- Only objects with an identifier have records. -/
def Named (s : AccessState τ) : Prop :=
  ∀ key record, s.lookup key = some record → key.object_id ≠ ""

theorem Named.init (persistent : Bool) : Named (init τ persistent) := by
  intro key record h
  cases persistent <;> cases h

theorem Named.run (lower : String → String) (depth : ℕ) (c : AccessCall τ) (hs : Consistent s) (h : Named s) :
    Named (c.run lower depth s) := by
  have hwritten : ∀ {s t s' : AccessState τ} {record : ObjectAccessRecord τ}, Named s →
      t.lookup = s.lookup → record.key.object_id ≠ "" → RecordWritten record t s' → Named s' := by
    intro s t s' record hs ht hid hwritten key r hr
    rw [hwritten.lookup_eq, ht] at hr
    by_cases hkey : key = record.key
    · rwa [hkey]
    · rw [Function.update_of_ne hkey] at hr
      exact hs key r hr
  have hredelegated : ∀ {write : Finset String → Finset String} {key : ObjectKey} {s' : AccessState τ},
      RedelegatedBy write key s s' → Named s' := by
    rintro write key s' ⟨t, record, hhydrated, hrecord, rfl, hw⟩
    apply hwritten h hhydrated.lookup_eq _ hw
    -- the record was found, so its object has an identifier
    apply h record.key record
    rw [← hhydrated.lookup_eq, lookup, hrecord, Option.some_or]
  cases callEffect_run lower depth c hs with
  | hydrated _ hs' =>
    intro key record hr
    rw [hs'.lookup_eq] at hr
    exact h key record hr
  | claimed hclaim hw =>
    refine hwritten h rfl ?_ hw
    exact hclaim.2.1
  | delegated hdelegated => exact hredelegated hdelegated
  | revoked hrevoked => exact hredelegated hrevoked
  | removed object_type object_id cascade =>
    exact fun key record hr => h key record ((removeObjectAccess_shrunk ..).lookup hs hr)
  | restarted =>
    exact fun key record hr => h key record ((shrunk_restart s).lookup hs hr)

/-! ## Delegates -/

/-- The caller is a delegate of the object, and in the durable table too where there is one. -/
def DelegateOf (P : String) (key : ObjectKey) (s : AccessState τ) : Prop :=
  ∃ record, s.lookup key = some record ∧ P ∈ record.delegates ∧
    (s.store.isSome → s.durable key = some record)

section Delegates

variable {P : String} {key : ObjectKey} {s s' : AccessState τ}

theorem DelegateOf.hydrated (h : DelegateOf P key s) (hs' : Hydrated s s') : DelegateOf P key s' := by
  obtain ⟨record, hlookup, hmem, hdurable⟩ := h
  refine ⟨record, by rw [hs'.lookup_eq, hlookup], hmem, ?_⟩
  rw [hs'.store, hs'.durable_eq]
  exact hdurable

variable {record : ObjectAccessRecord τ}

theorem DelegateOf.written_of_ne (h : DelegateOf P key s) (hne : key ≠ record.key) (hs' : RecordWritten record s s') :
    DelegateOf P key s' := by
  obtain ⟨old, hlookup, hmem, hdurable⟩ := h
  refine ⟨old, by rw [hs'.lookup_eq, Function.update_of_ne hne, hlookup], hmem, fun hstore => ?_⟩
  rw [hs'.durable]
  simp only [hne, if_false]
  exact hdurable (hs'.store ▸ hstore)

theorem RecordWritten.lookup_self (hs' : RecordWritten record s s') : s'.lookup record.key = some record := by
  rw [hs'.lookup_eq, Function.update_self]

theorem RecordWritten.delegateOf (hs' : RecordWritten record s s') (hmem : P ∈ record.delegates) :
    DelegateOf P record.key s' := by
  refine ⟨record, hs'.lookup_self, hmem, fun hstore => ?_⟩
  rw [hs'.store] at hstore
  obtain ⟨table, htable⟩ := Option.isSome_iff_exists.mp hstore
  rw [hs'.durable]
  simp [htable]

theorem DelegateOf.redelegated (h : DelegateOf P key s) {write : Finset String → Finset String}
    {changed : ObjectKey} (hwrite : changed = key → ∀ delegates, P ∈ delegates → P ∈ write delegates)
    (hs' : RedelegatedBy write changed s s') : DelegateOf P key s' := by
  obtain ⟨t, record, hhydrated, hrecord, rfl, hwritten⟩ := hs'
  by_cases hkey : record.key = key
  · obtain ⟨old, hlookup, hmem, -⟩ := h
    have hold : t.lookup record.key = some old := by rw [hhydrated.lookup_eq, hkey, hlookup]
    rw [lookup, hrecord, Option.some_or] at hold
    cases hold
    subst hkey
    exact hwritten.delegateOf (hwrite rfl _ hmem)
  · refine (h.hydrated hhydrated).written_of_ne ?_ hwritten
    exact Ne.symm hkey

theorem DelegateOf.sameAt (h : DelegateOf P key s) (hs' : SameAt key s s')
    (hstore : s'.store.isSome = s.store.isSome) : DelegateOf P key s' := by
  obtain ⟨record, hlookup, hmem, hdurable⟩ := h
  refine ⟨record, by rw [hs'.lookup_eq, hlookup], hmem, ?_⟩
  rw [hstore, hs'.2]
  exact hdurable

end Delegates

section Runs

variable (lower : String → String) (depth : ℕ)

/-- A call that neither revokes the delegation nor removes the object, be it as one that leads by
recorded parents to an object that is removed with cascade. A restart keeps what is durable. -/
def KeepsDelegate (P : String) (key : ObjectKey) (s : AccessState τ) : AccessCall τ → Prop
  | .revokeObjectAccess object_type object_id args =>
    objectKey lower object_type object_id = key → pyStrip args.delegate_principal = P →
      ∃ e, (revokeObjectAccess key args s).1 = .error e
  | .removeObjectAccess object_type object_id cascade =>
    key ≠ objectKey lower object_type object_id ∧
      (cascade = true → ¬ Leads s.recordedLink key (objectKey lower object_type object_id))
  | .restart => s.store.isSome
  | .getObjectAccess _ _ | .delegateObjectAccess _ _ _ | .authorizeObject _ _ _ _ _ _ _ _ _ => True

/-- **One call** that keeps the delegation. -/
theorem DelegateOf.run {P : String} {key : ObjectKey} {s : AccessState τ} (hs : Consistent s)
    (h : DelegateOf P key s) {c : AccessCall τ} (hc : KeepsDelegate lower P key s c) :
    DelegateOf P key (c.run lower depth s) := by
  cases callEffect_run lower depth c hs with
  | hydrated _ hs' => exact h.hydrated hs'
  | @claimed object_type object_id _ _ _ _ _ _ _ _ hclaim hwritten =>
    apply h.written_of_ne _ hwritten
    rintro rfl
    obtain ⟨record, hlookup, -⟩ := h
    cases hclaim.2.2.symm.trans hlookup
  | delegated hs' => exact h.redelegated (fun _ _ hmem => Finset.mem_insert_of_mem hmem) hs'
  | @revoked object_type object_id args _ hs' =>
    by_cases hrevokes : objectKey lower object_type object_id = key ∧ pyStrip args.delegate_principal = P
    · -- the revocation of the delegation itself raised
      obtain ⟨rfl, hP⟩ := hrevokes
      obtain ⟨e, he⟩ := hc rfl hP
      rcases revokeObjectAccess_cases (objectKey lower object_type object_id) args hs with
        ⟨-, hhydrated⟩ | ⟨⟨changed, hok⟩, -⟩
      · exact h.hydrated hhydrated
      · cases hok.symm.trans he
    · apply h.redelegated _ hs'
      intro hkey delegates hmem
      exact Finset.mem_erase.mpr ⟨fun hP => hrevokes ⟨hkey, hP.symm⟩, hmem⟩
  | removed object_type object_id cascade =>
    obtain ⟨hne, hleads⟩ := hc
    exact h.sameAt (removeObjectAccess_sameAt hs hne hleads) (removeObjectAccess_shrunk ..).store
  | restarted =>
    obtain ⟨record, -, hmem, hdurable⟩ := h
    exact ⟨record, hdurable hc, hmem, fun _ => hdurable hc⟩

/-- The delegate may use the object, or, when that has a parent, may use it exactly when it may use the
parent. -/
def Granted (P : String) (key : ObjectKey) (s : AccessState τ) : Prop :=
  ∃ record, s.lookup key = some record ∧
    ∀ args : AuthorizeArgs τ, args.principal.principal_id = P → ∀ depth,
      (record.parentRef = none → (authorizeObject (depth + 1) key args s).1 = .ok record) ∧
      ∀ parent, record.parentRef = some parent →
        ((authorizeObject (depth + 1) key args s).1 = .ok record ↔
          ∃ r, (authorizeObject depth parent args.forParent s).1 = .ok r)

theorem granted_of_delegateOf {P : String} {key : ObjectKey} {s : AccessState τ} (hs : Named s)
    (h : DelegateOf P key s) : Granted P key s := by
  obtain ⟨record, hlookup, hmem, -⟩ := h
  have hid : key.object_id ≠ "" := hs key record hlookup
  refine ⟨record, hlookup, fun args hP depth => ⟨fun hparent => ?_, fun parent hparent => ?_⟩⟩
  · have hentitled : Entitled record args.principal := .inr (.inr (hP ▸ hmem))
    rw [authorizeObject_of_parentRef_none depth args hid hlookup hparent,
      if_pos ((directAccessDecision_iff ..).mpr hentitled)]
  · rw [authorizeObject_eq_ok_iff depth args hid hlookup hparent]
    exact and_iff_right rfl

/-- **A delegation** grants in every state of a run that keeps it. -/
theorem granted_of_delegated {s s' : AccessState τ} (hs : Consistent s) (hnamed : Named s)
    {object_type object_id : String} {args : DelegateArgs τ} {changed : ObjectAccessRecord τ}
    (h : delegateObjectAccess (depth + 1) (objectKey lower object_type object_id) args s =
      (.ok changed, s')) {calls : List (AccessCall τ)}
    (hcalls : Run.EachStep (accessStep lower depth) s' calls
      (KeepsDelegate lower (pyStrip args.delegate_principal) (objectKey lower object_type object_id))) :
    Run.Always (accessStep lower depth) s' calls
      (Granted (pyStrip args.delegate_principal) (objectKey lower object_type object_id)) := by
  have hrun : (AccessCall.delegateObjectAccess object_type object_id args).run lower depth s = s' :=
    congrArg Prod.snd h
  have hdelegate : DelegateOf (pyStrip args.delegate_principal) (objectKey lower object_type object_id)
      s' := by
    rcases delegateObjectAccess_cases (depth + 1) (objectKey lower object_type object_id) args hs with
      ⟨⟨e, he⟩, -⟩ | ⟨-, t, record, -, -, hkey, hwritten⟩
    · rw [h] at he
      cases he
    · rw [h] at hwritten
      rw [← hkey]
      exact hwritten.delegateOf (Finset.mem_insert_self ..)
  have hall := Run.always_of_eachStep (I := fun t => Consistent t ∧ Named t ∧
    DelegateOf (pyStrip args.delegate_principal) (objectKey lower object_type object_id) t)
    ⟨hrun ▸ hs.run lower depth _, hrun ▸ hnamed.run lower depth _ hs, hdelegate⟩ ?_ hcalls
  · exact hall.mono fun t ht => granted_of_delegateOf ht.2.1 ht.2.2
  · rintro t c _ ⟨hconsistent, hn, hd⟩ hc ⟨⟩
    exact ⟨hconsistent.run lower depth c, hn.run lower depth c hconsistent,
      hd.run lower depth hconsistent hc⟩

end Runs

/-! ## Callers without a record -/

/-- Authorization does not succeed, at no depth of recursion, and is denied when the recursion may go deep
enough and the chain of parents ends. -/
def Refused (s : AccessState τ) (key : ObjectKey) (principal : RequestPrincipal) : Prop :=
  ∀ args : AuthorizeArgs τ, args.principal = principal → args.allow_claim = false →
    (∀ depth record, (authorizeObject depth key args s).1 ≠ .ok record) ∧
    (Ends s.next key → ∃ bound, ∀ depth ≥ bound,
      ∃ message, (authorizeObject depth key args s).1 = .error (.accessDenied message))

/-- No record of the chain entitles the caller. -/
def NotEntitled (s : AccessState τ) (key : ObjectKey) (principal : RequestPrincipal) : Prop :=
  ∀ y record, Leads s.next key y → s.lookup y = some record → ¬ Entitled record principal

theorem authorizeObject_ne_ok (depth : ℕ) {key : ObjectKey} (args : AuthorizeArgs τ)
    (h : NotEntitled s key args.principal) (hclaim : args.allow_claim = false) (record : ObjectAccessRecord τ) :
    (authorizeObject depth key args s).1 ≠ .ok record := by
  induction depth generalizing key args record with
  | zero => simp [authorizeObject]
  | succ depth ih =>
    intro hok
    by_cases hregistered : Registered s key
    · obtain ⟨hid, row, hlookup⟩ := hregistered
      cases hparent : row.parentRef with
      | none =>
        have hnot := h key row (.refl key) hlookup
        rw [authorizeObject_of_parentRef_none depth args hid hlookup hparent,
          if_neg (mt (directAccessDecision_iff ..).mp hnot)] at hok
        cases hok
      | some parent =>
        have hnext : s.next key = some parent := by rw [next_of_lookup hid hlookup, hparent]
        obtain ⟨-, r, hr⟩ := (authorizeObject_eq_ok_iff depth args hid hlookup hparent record).mp hok
        exact ih args.forParent (fun y record hy => h y record (hy.head hnext)) rfl r hr
    · obtain ⟨message, hmessage⟩ := authorizeObject_of_not_registered depth args hregistered hclaim
      cases hmessage.symm.trans hok

/-- **A caller who is entitled at no object of the chain** is refused. -/
theorem refused_of_not_entitled {key : ObjectKey} {principal : RequestPrincipal} (h : NotEntitled s key principal) :
    Refused s key principal := by
  rintro args rfl hclaim
  refine ⟨fun depth record => authorizeObject_ne_ok depth args h hclaim record, fun hends => ?_⟩
  have hnot : ¬ LastEntitled s key args.principal := by
    rintro ⟨-, last, record, hlast, -, hrecord, hentitled⟩
    exact h last record hlast hrecord hentitled
  obtain ⟨bound, hbound⟩ := decides_of_ends hends rfl args hclaim
  exact ⟨bound, fun depth hdepth => (hbound depth hdepth).2 hnot⟩

section Runs

variable (lower : String → String) (depth : ℕ)

theorem not_mem_delegates_of_revoked {s s' : AccessState τ} (hs : Consistent s) {key : ObjectKey}
    {args : DelegateArgs τ} {changed record : ObjectAccessRecord τ}
    (h : revokeObjectAccess key args s = (.ok changed, s')) (hrecord : s'.lookup key = some record) :
    pyStrip args.delegate_principal ∉ record.delegates := by
  rcases revokeObjectAccess_cases key args hs with ⟨⟨e, he⟩, -⟩ | ⟨-, t, old, -, -, hkey, hwritten⟩
  · rw [h] at he
    cases he
  · rw [h] at hwritten
    rw [← hkey] at hrecord
    obtain rfl := Option.some.inj (hwritten.lookup_self.symm.trans hrecord)
    exact Finset.notMem_erase (pyStrip args.delegate_principal) old.delegates

/-- The caller is no administrator, does not own the object, and neither owns nor has a delegation of
another object of the chain. -/
def OnlyDelegate (s : AccessState τ) (key : ObjectKey) (principal : RequestPrincipal) : Prop :=
  principal.isAdmin = false ∧ ∀ y record, Leads s.next key y → s.lookup y = some record →
    principal.principal_id ≠ record.owner_principal ∧
      (y ≠ key → principal.principal_id ∉ record.delegates)

/-- **Delegation and revocation**, in every state that calls lead to: a delegation grants in every later
state until it is revoked or the object is removed, and after a revocation a caller who had nothing else
is refused. -/
theorem delegation_and_revocation {persistent : Bool} {before : List (AccessCall τ)} {s : AccessState τ}
    (hs : Run.exec (accessStep lower depth) (init τ persistent) before = some s)
    (object_type object_id : String) (args : DelegateArgs τ) :
    (∀ changed s', delegateObjectAccess (depth + 1) (objectKey lower object_type object_id) args s =
        (.ok changed, s') →
      ∀ calls, Run.EachStep (accessStep lower depth) s' calls
          (KeepsDelegate lower (pyStrip args.delegate_principal) (objectKey lower object_type object_id)) →
        Run.Always (accessStep lower depth) s' calls
          (Granted (pyStrip args.delegate_principal) (objectKey lower object_type object_id))) ∧
    (∀ changed s', revokeObjectAccess (objectKey lower object_type object_id) args s = (.ok changed, s') →
      ∀ principal : RequestPrincipal, principal.principal_id = pyStrip args.delegate_principal →
        OnlyDelegate s' (objectKey lower object_type object_id) principal →
          Refused s' (objectKey lower object_type object_id) principal) := by
  have hinv : Consistent s ∧ Named s := by
    refine Run.exec_preserves (P := fun t => Consistent t ∧ Named t) ?_
      ⟨.init persistent, .init persistent⟩ hs
    rintro t c _ ⟨ht, hn⟩ ⟨⟩
    exact ⟨ht.run lower depth c, hn.run lower depth c ht⟩
  constructor
  · intro changed s' h calls hcalls
    exact granted_of_delegated lower depth hinv.1 hinv.2 h hcalls
  · rintro changed s' h principal hP ⟨hadmin, hothers⟩
    apply refused_of_not_entitled
    intro y record hy hrecord
    obtain ⟨howner, hdelegates⟩ := hothers y record hy hrecord
    rintro (hisAdmin | hisOwner | hisDelegate)
    · cases hadmin.symm.trans hisAdmin
    · exact howner hisOwner
    · by_cases hkey : y = objectKey lower object_type object_id
      · subst hkey
        exact not_mem_delegates_of_revoked hinv.1 h hrecord (hP ▸ hisDelegate)
      · exact hdelegates hkey hisDelegate

end Runs

def designInSession : List (AccessCall ℕ) :=
  let principal : RequestPrincipal := ⟨"p", "p", [], true, false⟩
  [.authorizeObject "session" "s" principal "create" "r" true "" "" 0,
    .authorizeObject "design" "d" principal "create" "r" true "session" "s" 0]

def designInSessionState : AccessState ℕ :=
  designInSession.foldl (fun s c => c.run id 1 s) (init ℕ false)

/-- The owner names another caller. -/
def nameQ : DelegateArgs ℕ := ⟨⟨"p", "p", [], true, false⟩, "q", "r", 0⟩

/-- The delegate of the session may use it, and may not after the revocation. -/
theorem delegation_and_revocation_session :
    Granted "q" (objectKey id "session" "s")
      (delegateObjectAccess 2 (objectKey id "session" "s") nameQ designInSessionState).2 ∧
    Refused (revokeObjectAccess (objectKey id "session" "s") nameQ designInSessionState).2
      (objectKey id "session" "s") ⟨"q", "q", [], true, false⟩ := by
  have hs : Run.exec (accessStep id 1) (init ℕ false) designInSession =
    some designInSessionState := rfl
  obtain ⟨hdelegated, hrevoked⟩ := delegation_and_revocation id 1 hs "session" "s" nameQ
  constructor
  · apply hdelegated _ _ (Prod.ext (Eq.refl (Except.ok _)) rfl) [] .nil _ List.prefix_rfl
    rfl
  · refine hrevoked _ _ (Prod.ext (Eq.refl (Except.ok _)) rfl) ⟨"q", "q", [], true, false⟩ (by decide)
      ⟨rfl, fun y record hy hrecord => ?_⟩
    have hend : next (revokeObjectAccess (objectKey id "session" "s") nameQ
      designInSessionState).2 (objectKey id "session" "s") = none := rfl
    rcases hy.cases_head with rfl | ⟨parent, hparent, -⟩
    · cases hrecord
      exact ⟨by decide, fun hne => absurd rfl hne⟩
    · cases hend.symm.trans hparent

/-- **The delegate of the design is denied**: its parent is the session. -/
theorem denied_delegate_design :
    Run.exec (accessStep id 1) (init ℕ false) designInSession = some designInSessionState ∧
    (∃ changed, (delegateObjectAccess 2 ⟨"design", "d"⟩ nameQ designInSessionState).1 = .ok changed) ∧
    ∀ depth ≥ 2, (authorizeObject depth ⟨"design", "d"⟩
        ⟨⟨"q", "q", [], true, false⟩, "read", "r", false, ⟨"", ""⟩, 0⟩
        (delegateObjectAccess 2 ⟨"design", "d"⟩ nameQ designInSessionState).2).1 =
      .error (.accessDenied targetObjectDenied) := by
  refine ⟨rfl, ⟨_, rfl⟩, fun depth hdepth => ?_⟩
  obtain ⟨depth, rfl⟩ := Nat.exists_eq_add_of_le' hdepth
  rw [authorizeObject_of_parentRef_some (depth + 1) _ (by decide) rfl rfl,
    authorizeObject_of_parentRef_none depth _ (by decide) rfl rfl]
  rfl

end ZapTrace
