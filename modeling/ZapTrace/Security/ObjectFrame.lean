import ZapTrace.Security.ObjectCache
import ZapTrace.Security.ObjectDecision

/-!
# Calls that leave a decision alone

A decision on an object depends on the records of its chain only. A claim, a delegation or a revocation
on another object leaves them as they are, and so does a removal, unless the object leads to what is
removed by the parents as they are recorded. Authorization takes a parent without a type or without an
identifier for none, and a removal does not.

## Main results

* `decides_and_keepsDecision`: calls outside the chain keep the decision under the condition
-/

namespace ZapTrace

open AccessState Option

open Links (Leads)

variable {τ : Type}

/-- The parents as the records have them, also those that lack a type or an identifier. -/
def AccessState.recordedLink (s : AccessState τ) : ObjectKey → Option ObjectKey :=
  Links.link (fun record => some record.parentKey) s.lookup

variable {s : AccessState τ}

theorem AccessState.recordedLink_of_next {key parent : ObjectKey} (h : s.next key = some parent) :
    s.recordedLink key = some parent := by
  unfold next at h
  split at h
  · cases h
  · obtain ⟨record, hrecord, hparent⟩ := bind_eq_some_iff.mp h
    refine bind_eq_some_iff.mpr ⟨record, hrecord, ?_⟩
    unfold ObjectAccessRecord.parentRef at hparent
    split at hparent
    · cases hparent
    · exact hparent

/-! ## Removals -/

theorem leads_recordedLink_of_durableLink (hs : Consistent s) {y key : ObjectKey} (h : Leads s.durableLink y key) :
    Leads s.recordedLink y key := by
  refine h.mono fun a b hab => ?_
  obtain ⟨record, hrecord, hparent⟩ := bind_eq_some_iff.mp hab
  refine bind_eq_some_iff.mpr ⟨record, ?_, hparent⟩
  rw [lookup]
  cases hcache : s.cache.get? a with
  | none => rw [hrecord, none_or]
  | some old => rw [hs.agree a old record hcache hrecord, some_or]

/-- The records of an object are the same in memory, and in the durable table. -/
def SameAt (y : ObjectKey) (s s' : AccessState τ) : Prop :=
  s'.cache.get? y = s.cache.get? y ∧ s'.durable y = s.durable y

theorem SameAt.trans {y : ObjectKey} {s s' s'' : AccessState τ} (h : SameAt y s s')
    (h' : SameAt y s' s'') : SameAt y s s'' :=
  ⟨h'.1.trans h.1, h'.2.trans h.2⟩

theorem SameAt.lookup_eq {y : ObjectKey} {s s' : AccessState τ} (h : SameAt y s s') :
    s'.lookup y = s.lookup y := by
  rw [lookup, h.1, h.2, lookup]

theorem removeOne_sameAt {cascade : Bool} {key y : ObjectKey} (hs : Consistent s) (hne : y ≠ key)
    (h : cascade = true → ¬ Leads s.recordedLink y key) : SameAt y s (removeOne cascade key s) := by
  constructor
  · rw [removeOne, Dict.get?_erase, if_neg hne]
  · cases cascade with
    | true =>
      rw [durable_removeOne]
      ext record
      rw [Links.cut_eq_some_iff]
      refine ⟨fun hcut => hcut.1, fun hrecord => ⟨hrecord, fun x hx hleads => ?_⟩⟩
      rw [List.mem_singleton.mp hx] at hleads
      exact h rfl (leads_recordedLink_of_durableLink hs hleads)
    | false =>
      rw [durable, durable, removeOne]
      cases s.store with
      | none => rfl
      | some table =>
        simp only [map_some, bind_some, AccessTable.deleteObjectAccess]
        rw [if_neg Bool.false_ne_true, Dict.get?_erase, if_neg hne]

/-- **A removal** leaves an object alone that does not lead to the removed one by recorded parents. -/
theorem removeObjectAccess_sameAt {cascade : Bool} {depth : ℕ} {key y : ObjectKey} (hs : Consistent s) (hne : y ≠ key)
    (h : cascade = true → ¬ Leads s.recordedLink y key) : SameAt y s (removeObjectAccess cascade depth key s) := by
  induction depth generalizing key s with
  | zero => exact ⟨rfl, rfl⟩
  | succ depth ih =>
    have hone := removeOne_sameAt hs hne h
    rw [removeObjectAccess_succ]
    cases cascade with
    | false => exact hone
    | true =>
      have hshrunk := removeOne_shrunk true key s
      -- the children are removed one after the other, in states with fewer and fewer records
      have hfold : ∀ (children : List ObjectKey) (t : AccessState τ), Shrunk s t →
          (∀ c ∈ children, s.recordedLink c = some key) →
          SameAt y t (children.foldl (fun s child => removeObjectAccess true depth child s) t) := by
        intro children
        induction children with
        | nil => exact fun t _ _ => ⟨rfl, rfl⟩
        | cons c cs ihcs =>
          intro t ht hchildren
          have hc : ¬ Leads s.recordedLink y c := fun hleads =>
            h rfl (hleads.tail (hchildren c List.mem_cons_self))
          have hsame : SameAt y t (removeObjectAccess true depth c t) := by
            apply ih (hs.shrunk ht)
            · rintro rfl
              exact hc (.refl y)
            · exact fun _ hleads => hc (hleads.mono (Links.link_mono fun _ _ => ht.lookup hs))
          exact hsame.trans (ihcs _ (ht.trans (removeObjectAccess_shrunk true depth c t))
            fun c' hc' => hchildren c' (List.mem_cons_of_mem _ hc'))
      rw [if_pos rfl]
      refine hone.trans (hfold _ _ hshrunk fun c hc => ?_)
      obtain ⟨record, hrecord, hparent⟩ := bind_eq_some_iff.mp (Links.mem_children_iff.mp hc)
      refine bind_eq_some_iff.mpr ⟨record, ?_, hparent⟩
      rw [lookup, hshrunk.cache c record hrecord, some_or]

/-! ## Chains -/

theorem lastEntitled_congr {s s' : AccessState τ} {x : ObjectKey}
    (h : ∀ y, Leads s.next x y → s'.lookup y = s.lookup y) (principal : RequestPrincipal) :
    LastEntitled s' x principal ↔ LastEntitled s x principal := by
  have hnext : ∀ y, Leads s.next x y → s'.next y = s.next y := by
    intro y hy
    rw [next, h y hy, next]
  unfold LastEntitled
  simp only [Links.leads_congr hnext]
  constructor
  · rintro ⟨hall, last, record, hlast, hend, hrecord, hentitled⟩
    refine ⟨fun y hy => ?_, last, record, hlast, ?_, ?_, hentitled⟩
    · obtain ⟨hid, record', hrecord'⟩ := hall y hy
      exact ⟨hid, record', (h y hy).symm.trans hrecord'⟩
    · rw [← hnext last hlast, hend]
    · rw [← h last hlast, hrecord]
  · rintro ⟨hall, last, record, hlast, hend, hrecord, hentitled⟩
    refine ⟨fun y hy => ?_, last, record, hlast, ?_, ?_, hentitled⟩
    · obtain ⟨hid, record', hrecord'⟩ := hall y hy
      exact ⟨hid, record', (h y hy).trans hrecord'⟩
    · rw [hnext last hlast, hend]
    · rw [h last hlast, hrecord]

section Runs

variable (lower : String → String) (depth : ℕ)

/-- A call on an object that the chain of `x` does not pass. Only a claim makes an authorization more
than a look at the records, and a restart is not a call on an object. -/
def OutsideChain (x : ObjectKey) (s : AccessState τ) : AccessCall τ → Prop
  | .getObjectAccess _ _ => True
  | .authorizeObject object_type object_id _ _ _ allow_claim _ _ _ =>
    allow_claim = true → ¬ Leads s.next x (objectKey lower object_type object_id)
  | .delegateObjectAccess object_type object_id _ | .revokeObjectAccess object_type object_id _
  | .removeObjectAccess object_type object_id _ =>
    ¬ Leads s.next x (objectKey lower object_type object_id)
  | .restart => False

/-- What a removal with cascade takes out, `x` does not lead to by recorded parents. -/
def NotRecorded (x : ObjectKey) (s : AccessState τ) : AccessCall τ → Prop
  | .removeObjectAccess object_type object_id true =>
    ¬ Leads s.recordedLink x (objectKey lower object_type object_id)
  | _ => True

/-- **One call** outside the chain leaves the records of the chain as they are. -/
theorem lookup_run_of_outsideChain {s : AccessState τ} (hs : Consistent s) {x : ObjectKey}
    {c : AccessCall τ} (hout : OutsideChain lower x s c) (hnot : NotRecorded lower x s c)
    {y : ObjectKey} (hy : Leads s.next x y) : (c.run lower depth s).lookup y = s.lookup y := by
  have hredelegated : ∀ {write : Finset String → Finset String} {key : ObjectKey} {s' : AccessState τ},
      ¬ Leads s.next x key → RedelegatedBy write key s s' → s'.lookup y = s.lookup y := by
    rintro write key s' hkey ⟨t, record, hhydrated, -, rfl, hwritten⟩
    have hne : y ≠ record.key := by
      rintro rfl
      exact hkey hy
    rw [hwritten.lookup_eq]
    exact (Function.update_of_ne hne _ _).trans (congrFun hhydrated.lookup_eq y)
  cases callEffect_run lower depth c hs with
  | hydrated _ h => rw [h.lookup_eq]
  | @claimed object_type object_id _ _ _ _ _ _ _ _ hclaim hwritten =>
    have hne : y ≠ objectKey lower object_type object_id := by
      rintro rfl
      exact hout hclaim.1 hy
    rw [hwritten.lookup_eq]
    exact Function.update_of_ne hne _ _
  | delegated h => exact hredelegated hout h
  | revoked h => exact hredelegated hout h
  | removed object_type object_id cascade =>
    apply (removeObjectAccess_sameAt hs _ _).lookup_eq
    · rintro rfl
      exact hout hy
    · rintro rfl hleads
      exact hnot ((hy.mono fun _ _ => recordedLink_of_next).trans hleads)
  | restarted => exact hout.elim

/-- Throughout a run from `s`, authorization of `x` decides what the last object of its chain in `s`
decides. -/
def KeepsDecision (s : AccessState τ) (x : ObjectKey) (calls : List (AccessCall τ)) : Prop :=
  Run.Always (accessStep lower depth) s calls fun s' =>
    ∀ args : AuthorizeArgs τ, args.allow_claim = false →
      Decides s' x args (LastEntitled s x args.principal)

/-- **The decision in runs**: while calls stay outside the chain and no removal reaches it by recorded
parents, authorization decides what the last object of the chain decided at first. -/
theorem keepsDecision_of_notRecorded {s : AccessState τ} (hs : Consistent s) (hacyclic : Acyclic s)
    {x : ObjectKey} {calls : List (AccessCall τ)}
    (hout : Run.EachStep (accessStep lower depth) s calls (OutsideChain lower x))
    (hnot : Run.EachStep (accessStep lower depth) s calls (NotRecorded lower x)) :
    KeepsDecision lower depth s x calls := by
  have hchain : Run.Always (accessStep lower depth) s calls fun s' =>
      Consistent s' ∧ ∀ y, Leads s.next x y → s'.lookup y = s.lookup y := by
    refine Run.always_of_eachStep (C := fun t c => OutsideChain lower x t c ∧ NotRecorded lower x t c)
      ⟨hs, fun _ _ => rfl⟩ ?_ fun pre c hpre t t' ht ht' =>
        ⟨hout pre c hpre t t' ht ht', hnot pre c hpre t t' ht ht'⟩
    rintro t c _ ⟨ht, hsame⟩ ⟨houtside, hrecorded⟩ ⟨⟩
    refine ⟨ht.run lower depth c, fun y hy => ?_⟩
    -- the chain in the state before the call is the chain at first
    have hnext : ∀ z, Leads s.next x z → t.next z = s.next z := by
      intro z hz
      rw [next, hsame z hz, next]
    rw [lookup_run_of_outsideChain lower depth ht houtside hrecorded ((Links.leads_congr hnext).mpr hy),
      hsame y hy]
  refine hchain.mono fun s' hs' args hclaim => ?_
  rw [← lastEntitled_congr hs'.2]
  apply decides_of_ends _ rfl args hclaim
  apply (hacyclic.ends x).congr
  intro z hz
  rw [next, hs'.2 z hz, next]

/-- **The decision** on an object of a table without cycles is that of the last object of its chain,
and stays so throughout a run of calls outside the chain whose removals do not reach it by recorded
parents. -/
theorem decides_and_keepsDecision {s : AccessState τ} (hacyclic : Acyclic s) (x : ObjectKey) :
    (∀ args : AuthorizeArgs τ, args.allow_claim = false →
      Decides s x args (LastEntitled s x args.principal)) ∧
    (Consistent s → ∀ calls : List (AccessCall τ),
      Run.EachStep (accessStep lower depth) s calls (OutsideChain lower x) →
      Run.EachStep (accessStep lower depth) s calls (NotRecorded lower x) →
      KeepsDecision lower depth s x calls) :=
  ⟨fun _ hclaim => decides_lastEntitled hacyclic x hclaim, fun hs _ hout hnot =>
    keepsDecision_of_notRecorded lower depth hs hacyclic hout hnot⟩

end Runs

theorem acyclic_of_parentRef_none (h : ∀ key record, s.lookup key = some record → record.parentRef = none) :
    Acyclic s := by
  intro key parent hparent
  unfold next at hparent
  split at hparent
  · cases hparent
  · obtain ⟨record, hrecord, hparent⟩ := bind_eq_some_iff.mp hparent
    cases (h key record hrecord).symm.trans hparent

/-- A caller claims an object without a type, and a session that names it as its parent. -/
def halfParentCalls : List (AccessCall ℕ) :=
  let principal : RequestPrincipal := ⟨"p", "p", [], true, false⟩
  [.authorizeObject "" "board" principal "create" "r" true "" "" 0,
    .authorizeObject "session" "s" principal "create" "r" true "" "board" 0]

def halfParentState : AccessState ℕ :=
  halfParentCalls.foldl (fun s c => c.run id 0 s) (init ℕ false)

theorem halfParentState_parentRef {key : ObjectKey} {record : ObjectAccessRecord ℕ}
    (h : halfParentState.lookup key = some record) : record.parentRef = none := by
  have hall : ∀ item ∈ halfParentState.cache.items, item.2.parentRef = none := by decide
  have hcache : halfParentState.cache.get? key = some record := by
    rcases or_eq_some_iff.mp h with hcache | ⟨-, hdurable⟩
    · exact hcache
    · cases hdurable
  exact hall (key, record) (Dict.get?_eq_some_iff.mp hcache)

/-- The run of a delegation on the board: the session stays as it is. -/
theorem decides_and_keepsDecision_delegateBoard :
    Acyclic halfParentState ∧ Consistent halfParentState ∧
      KeepsDecision id 0 halfParentState ⟨"session", "s"⟩
        [.delegateObjectAccess "" "board" ⟨⟨"p", "p", [], true, false⟩, "q", "r", 0⟩] := by
  have hacyclic : Acyclic halfParentState := acyclic_of_parentRef_none fun _ _ => halfParentState_parentRef
  have hconsistent : Consistent halfParentState := (Consistent.init false).foldl_run id 0 _
  refine ⟨hacyclic, hconsistent,
    (decides_and_keepsDecision id 0 hacyclic ⟨"session", "s"⟩).2 hconsistent _ ?_ ?_⟩
  · refine Run.EachStep.cons ?_ (Eq.refl (some _)) .nil
    intro hleads
    rcases hleads.cases_head with heq | ⟨parent, hparent, -⟩
    · exact absurd heq (by decide)
    · cases (show halfParentState.next ⟨"session", "s"⟩ = none by decide).symm.trans hparent
  · exact Run.EachStep.cons trivial (Eq.refl (some _)) .nil

/-- **The removal of the board**, which is not in the chain of the session, takes the session out: its
owner is denied afterwards. -/
theorem not_keepsDecision_halfParent :
    Acyclic halfParentState ∧ Consistent halfParentState ∧
      Registered halfParentState ⟨"", "board"⟩ ∧ Registered halfParentState ⟨"session", "s"⟩ ∧
      Run.EachStep (accessStep id 0) halfParentState [.removeObjectAccess "" "board" true]
        (OutsideChain id ⟨"session", "s"⟩) ∧
      ¬ KeepsDecision id 0 halfParentState ⟨"session", "s"⟩ [.removeObjectAccess "" "board" true] := by
  have hnext : halfParentState.next ⟨"session", "s"⟩ = none := by decide
  refine ⟨acyclic_of_parentRef_none fun _ _ => halfParentState_parentRef,
    (Consistent.init false).foldl_run id 0 _, ?_, ?_, ?_, ?_⟩
  · exact ⟨by decide, _, rfl⟩
  · exact ⟨by decide, _, rfl⟩
  · refine Run.EachStep.cons ?_ (Eq.refl (some _)) .nil
    intro hleads
    rcases hleads.cases_head with heq | ⟨parent, hparent, -⟩
    · exact absurd heq (by decide)
    · cases hnext.symm.trans hparent
  · intro hkeeps
    obtain ⟨bound, hbound⟩ := hkeeps _ List.prefix_rfl _ rfl
      ⟨⟨"p", "p", [], true, false⟩, "read", "r", false, ⟨"", ""⟩, 0⟩ rfl
    obtain ⟨hallowed, -⟩ := hbound (bound + 1) (Nat.le_succ bound)
    have hentitled : LastEntitled halfParentState ⟨"session", "s"⟩ ⟨"p", "p", [], true, false⟩ := by
      rw [lastEntitled_iff_of_parentRef_none (by decide) rfl (by decide)]
      exact .inr (.inl (by decide))
    obtain ⟨record, hrecord⟩ := hallowed hentitled
    have hremoved : ¬ Registered (AccessCall.run id 0 (.removeObjectAccess "" "board" true) halfParentState)
        ⟨"session", "s"⟩ := by
      rintro ⟨-, record, hrecord⟩
      cases (show lookup _ _ = none by decide).symm.trans hrecord
    obtain ⟨message, hmessage⟩ := authorizeObject_of_not_registered bound
      ⟨⟨"p", "p", [], true, false⟩, "read", "r", false, ⟨"", ""⟩, 0⟩ hremoved rfl
    cases hmessage.symm.trans hrecord

end ZapTrace
