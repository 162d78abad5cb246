import ZapTrace.Library.Run
import ZapTrace.Security.ObjectEffects

/-!
# The memory against the durable table

With persistence, every record in memory should be that of the durable table. All operations keep this
but one: a cascading removal deletes the durable rows whose parents lead to the object, and takes out of
the memory the records that lead there through records in memory. A record whose way leads over an
object that is not in memory stays behind.

## Main results

* `durable_removeObjectAccess`, `cache_removeObjectAccess`: what a cascading removal cuts
* `mirrored_iff_cascadeReaches`: a run is mirrored throughout exactly when its removals meet the
  condition
-/

namespace ZapTrace

open Links AccessState List Option

open Links (Leads)

variable {τ : Type}

namespace AccessState

/-- The parents that the durable table names. -/
def durableLink (s : AccessState τ) : ObjectKey → Option ObjectKey :=
  link (fun record => some record.parentKey) s.durable

/-- The parents that the records in memory name. -/
def cacheLink (s : AccessState τ) : ObjectKey → Option ObjectKey :=
  link (fun record => some record.parentKey) s.cache.get?

end AccessState

/-- Every record in memory is that of the durable table. -/
def SubMap (s : AccessState τ) : Prop :=
  ∀ key record, s.cache.get? key = some record → s.durable key = some record

/-! ## Cascading removals -/

theorem durable_removeOne (key : ObjectKey) (s : AccessState τ) :
    (removeOne true key s).durable = cut (fun record => some record.parentKey) s.durable [key] := by
  cases hstore : s.store with
  | none =>
    have hnone : s.durable = fun _ => none := by
      ext
      simp [durable, hstore]
    ext k record
    simp [cut_eq_some_iff, hnone, durable, removeOne, hstore]
  | some table =>
    have hdurable : s.durable = table.get? := by
      ext
      simp [durable, hstore]
    rw [hdurable, ← get?_deleteLinked]
    ext
    simp [durable, removeOne, hstore, AccessTable.deleteObjectAccess]

variable {s : AccessState τ} {depth : ℕ}

theorem not_leads_of_durable_removeObjectAccess {key k : ObjectKey} {record : ObjectAccessRecord τ}
    (h : (removeObjectAccess true (depth + 1) key s).durable k = some record) :
    s.durable k = some record ∧ ¬ Leads s.durableLink k key := by
  have hfold : ∀ (children : List ObjectKey) (t : AccessState τ), Shrunk t
      (children.foldl (fun s child => removeObjectAccess true depth child s) t) := by
    intro children
    induction children with
    | nil => exact .refl
    | cons c cs ih => exact fun t => (removeObjectAccess_shrunk true depth c t).trans (ih _)
  rw [removeObjectAccess_succ, if_pos rfl] at h
  have hone := (hfold _ _).durable k record h
  rw [durable_removeOne, cut_eq_some_iff] at hone
  exact ⟨hone.1, hone.2 key mem_cons_self⟩

theorem cache_removeObjectAccess_eq (depth : ℕ) (key : ObjectKey) (s : AccessState τ) :
    (removeObjectAccess true depth key s).cache =
      removeLinked (fun record => some record.parentKey) depth key s.cache := by
  induction depth generalizing key s with
  | zero => rfl
  | succ depth ih =>
    have hfold : ∀ (children : List ObjectKey) (t : AccessState τ),
        (children.foldl (fun s child => removeObjectAccess true depth child s) t).cache =
          children.foldl (fun d child =>
            removeLinked (fun record => some record.parentKey) depth child d) t.cache := by
      intro children
      induction children with
      | nil => exact fun t => rfl
      | cons c cs ihcs =>
        intro t
        rw [foldl_cons, ihcs, ih, foldl_cons]
    rw [removeObjectAccess_succ, if_pos rfl, hfold]
    rfl

/-- **The memory** is cut at the object, along its own records. -/
theorem cache_removeObjectAccess (key : ObjectKey) (s : AccessState τ) :
    (removeObjectAccess true (s.cache.keys.length + 1) key s).cache.get? =
      cut (fun record => some record.parentKey) s.cache.get? [key] := by
  rw [cache_removeObjectAccess_eq]
  apply get?_removeLinked
  exact Nat.lt_succ_of_le (Dict.length_keys_erase_le _ _)

/-- No row of the durable table leads to the object. -/
def NothingLeads (s : AccessState τ) (key : ObjectKey) : Prop :=
  ∀ k record, s.durable k = some record → ¬ Leads s.durableLink k key

theorem durable_foldl_eq_self
    (hremove : ∀ (c : ObjectKey) (t : AccessState τ), (∀ k, Leads t.cacheLink k c → NothingLeads t k) → (removeObjectAccess true depth c t).durable = t.durable)
    (children : List ObjectKey) (s : AccessState τ) (h : ∀ c ∈ children, ∀ k, Leads s.cacheLink k c → NothingLeads s k) :
    (children.foldl (fun s child => removeObjectAccess true depth child s) s).durable = s.durable := by
  induction children generalizing s with
  | nil => rfl
  | cons c cs ih =>
    have hone := hremove c s (h c mem_cons_self)
    have hshrunk := removeObjectAccess_shrunk true depth c s
    rw [foldl_cons, ih, hone]
    intro c' hc' k hk
    have hk' := h c' (mem_cons_of_mem _ hc') k (hk.mono (link_mono hshrunk.cache))
    unfold NothingLeads durableLink at hk' ⊢
    rw [hone]
    exact hk'

theorem durable_removeObjectAccess_eq_self {key : ObjectKey} (h : ∀ k, Leads s.cacheLink k key → NothingLeads s k) :
    (removeObjectAccess true depth key s).durable = s.durable := by
  induction depth generalizing key s with
  | zero => rfl
  | succ depth ih =>
    have hone : (removeOne true key s).durable = s.durable := by
      rw [durable_removeOne]
      apply cut_eq_self
      intro k record hk x hx
      rw [mem_singleton.mp hx]
      exact h key (.refl key) k record hk
    have hshrunk := removeOne_shrunk true key s
    rw [removeObjectAccess_succ, if_pos rfl, durable_foldl_eq_self fun c t ht => ih ht, hone]
    -- what leads to a child leads to the object
    intro c hc k hk
    have hchild := link_mono hshrunk.cache c key (mem_children_iff.mp hc)
    have hk' := h k ((hk.mono (link_mono hshrunk.cache)).tail hchild)
    unfold NothingLeads durableLink at hk' ⊢
    rw [hone]
    exact hk'

/-- **The durable table** is cut at the object, along its own rows, when the memory is part of it. -/
theorem durable_removeObjectAccess {key : ObjectKey} (hs : SubMap s) :
    (removeObjectAccess true (depth + 1) key s).durable =
      cut (fun record => some record.parentKey) s.durable [key] := by
  have hshrunk := removeOne_shrunk true key s
  rw [removeObjectAccess_succ, if_pos rfl,
    durable_foldl_eq_self fun c t ht => durable_removeObjectAccess_eq_self ht]
  · exact durable_removeOne key s
  · -- what is visited in memory led to the object in the durable table, where it is gone
    intro c hc k hk z record hz hleads
    have hchild := link_mono hshrunk.cache c key (mem_children_iff.mp hc)
    have hk' : Leads s.durableLink k key :=
      ((hk.mono (link_mono hshrunk.cache)).tail hchild).mono (link_mono hs)
    rw [durable_removeOne, cut_eq_some_iff] at hz
    exact hz.2 key mem_cons_self ((hleads.mono (link_mono hshrunk.durable)).trans hk')

/-! ## Single calls -/

/-- The records that lead to the object in the durable table lead there in memory. -/
def CascadeReachesAt (s : AccessState τ) (key : ObjectKey) : Prop :=
  ∀ k record, s.cache.get? k = some record → Leads s.durableLink k key → Leads s.cacheLink k key

/-- The condition on a call. -/
def CascadeReaches (lower : String → String) (s : AccessState τ) : AccessCall τ → Prop
  | .removeObjectAccess object_type object_id true => CascadeReachesAt s (objectKey lower object_type object_id)
  | _ => True

theorem subMap_cascade_iff (hs : SubMap s) (key : ObjectKey) :
    SubMap (removeObjectAccess true (s.cache.keys.length + 1) key s) ↔ CascadeReachesAt s key := by
  unfold SubMap CascadeReachesAt
  rw [cache_removeObjectAccess, durable_removeObjectAccess hs]
  simp only [cut_eq_some_iff, mem_singleton, forall_eq]
  constructor
  · intro h k record hk hleads
    by_contra hnot
    exact (h k record ⟨hk, hnot⟩).2 hleads
  · rintro h k record ⟨hk, hnot⟩
    exact ⟨hs k record hk, fun hleads => hnot (h k record hk hleads)⟩

namespace SubMap

variable {s s' : AccessState τ}

theorem hydrated (h : SubMap s) (hs' : Hydrated s s') : SubMap s' := by
  intro key record hr
  rw [hs'.durable_eq]
  rcases hs'.cache key with heq | ⟨-, heq⟩
  · exact h key record (heq ▸ hr)
  · exact heq ▸ hr

theorem written (h : SubMap s) {record : ObjectAccessRecord τ} (hs' : RecordWritten record s s')
    (hstore : s.store.isSome) : SubMap s' := by
  intro key r hr
  rw [hs'.cache, Dict.get?_set] at hr
  rw [hs'.durable]
  split at hr
  · rename_i hkey
    obtain ⟨table, htable⟩ := isSome_iff_exists.mp hstore
    simp only [hkey, if_true, htable, map_some]
    exact hr
  · rename_i hkey
    simp only [hkey, if_false]
    exact h key r hr

theorem removed (h : SubMap s) (depth : ℕ) (key : ObjectKey) :
    SubMap (removeObjectAccess false (depth + 1) key s) := by
  intro k record hr
  rw [removeObjectAccess_succ, if_neg Bool.false_ne_true] at hr ⊢
  rw [removeOne, Dict.get?_erase] at hr
  split at hr
  · cases hr
  · rename_i hk
    have hdurable := h k record hr
    obtain ⟨table, htable, hrow⟩ := bind_eq_some_iff.mp hdurable
    rw [durable, removeOne, htable, map_some, bind_some,
      AccessTable.deleteObjectAccess, if_neg Bool.false_ne_true, Dict.get?_erase, if_neg hk]
    exact hrow

end SubMap

/-- **What one call does to the mirror.** -/
theorem subMap_run_iff (lower : String → String) (depth : ℕ) (c : AccessCall τ) (hs : Consistent s)
    (hstore : s.store.isSome) (h : SubMap s) : SubMap (c.run lower depth s) ↔ CascadeReaches lower s c := by
  have hredelegated : ∀ {write : Finset String → Finset String} {key : ObjectKey} {s' : AccessState τ},
      RedelegatedBy write key s s' → SubMap s' := by
    rintro write key s' ⟨t, record, hhydrated, -, -, hwritten⟩
    exact (h.hydrated hhydrated).written hwritten (hhydrated.store ▸ hstore)
  cases callEffect_run lower depth c hs with
  | hydrated hreads hs' =>
    cases c with
    | removeObjectAccess object_type object_id cascade => exact absurd trivial hreads
    | _ => exact iff_true_intro (h.hydrated hs')
  | claimed _ hwritten => exact iff_true_intro (h.written hwritten hstore)
  | delegated hdelegated => exact iff_true_intro (hredelegated hdelegated)
  | revoked hrevoked => exact iff_true_intro (hredelegated hrevoked)
  | removed object_type object_id cascade =>
    cases cascade with
    | true => exact subMap_cascade_iff h _
    | false => exact iff_true_intro (h.removed s.cache.keys.length _)
  | restarted => exact iff_true_intro nofun

/-! ## Runs -/

section Runs

variable (lower : String → String) (depth : ℕ)

/-- The records after a sequence of calls, from empty tables and with persistence. -/
def runCalls (calls : List (AccessCall τ)) : AccessState τ :=
  calls.foldl (fun s c => c.run lower depth s) (init τ true)

/-- Neither the memory nor the durable table has an object whose durable parents led to the key. -/
def PurgedOf (s s' : AccessState τ) (key : ObjectKey) : Prop :=
  ∀ k, Leads s.durableLink k key → s'.cache.get? k = none ∧ s'.durable k = none

/-- The memory is part of the durable table at the end of the calls, and when the last of them is a
cascading removal, nothing that led to its object is left. -/
structure Mirrored (calls : List (AccessCall τ)) : Prop where
  subMap : SubMap (runCalls lower depth calls)
  purged : ∀ earlier object_type object_id,
    calls = earlier ++ [.removeObjectAccess object_type object_id true] →
      PurgedOf (runCalls lower depth earlier) (runCalls lower depth calls)
        (objectKey lower object_type object_id)

theorem runCalls_concat (calls : List (AccessCall τ)) (c : AccessCall τ) :
    runCalls lower depth (calls ++ [c]) = c.run lower depth (runCalls lower depth calls) := by
  simp [runCalls]

theorem runCalls_consistent (calls : List (AccessCall τ)) :
    Consistent (runCalls lower depth calls) ∧ (runCalls lower depth calls).store.isSome := by
  induction calls using reverseRecOn with
  | nil => exact ⟨.init true, rfl⟩
  | append_singleton calls c ih =>
    rw [runCalls_concat, isSome_store_run lower depth c ih.1]
    exact ⟨ih.1.run lower depth c, ih.2⟩

theorem mirrored_concat_iff {calls : List (AccessCall τ)} (h : Mirrored lower depth calls)
    (c : AccessCall τ) :
    Mirrored lower depth (calls ++ [c]) ↔ CascadeReaches lower (runCalls lower depth calls) c := by
  obtain ⟨hconsistent, hstore⟩ := runCalls_consistent lower depth calls
  have hiff := subMap_run_iff lower depth c hconsistent hstore h.subMap
  rw [← runCalls_concat] at hiff
  refine ⟨fun hm => hiff.mp hm.subMap, fun hc => ⟨hiff.mpr hc, fun earlier t i heq k hk => ?_⟩⟩
  obtain ⟨rfl, hcall⟩ := append_inj' heq rfl
  obtain rfl := (cons.inj hcall).1
  have hdurable : (runCalls lower depth (calls ++ [.removeObjectAccess t i true])).durable k = none := by
    rw [runCalls_concat, eq_none_iff_forall_ne_some]
    intro record hr
    exact (not_leads_of_durable_removeObjectAccess hr).2 hk
  refine ⟨?_, hdurable⟩
  rw [eq_none_iff_forall_ne_some]
  intro record hr
  cases hdurable.symm.trans (hiff.mpr hc k record hr)

/-- **The mirror**: throughout a run the memory is part of the durable table, and cascading removals
leave nothing that led to their object, exactly when each of them reaches in memory what leads to its
object in the durable table. -/
theorem mirrored_iff_cascadeReaches (calls : List (AccessCall τ)) :
    (∀ pre, pre <+: calls → Mirrored lower depth pre) ↔
      ∀ pre c, pre ++ [c] <+: calls → CascadeReaches lower (runCalls lower depth pre) c := by
  apply Run.forall_prefix_iff
  · exact ⟨nofun, fun earlier t i heq => by simp at heq⟩
  · exact fun pre c h => mirrored_concat_iff lower depth h c

end Runs

/-- A session, a review of it and a note on the review are claimed; after a restart only the note comes
back into the memory. -/
def noteWithoutReview : List (AccessCall ℕ) :=
  let principal : RequestPrincipal := ⟨"p", "p", [], true, false⟩
  [.authorizeObject "session" "s" principal "create" "r" true "" "" 0,
    .authorizeObject "review" "v" principal "create" "r" true "session" "s" 0,
    .authorizeObject "note" "n" principal "create" "r" true "review" "v" 0,
    .restart, .getObjectAccess "note" "n"]

/-- The removal of the session leaves the note in memory. -/
theorem not_mirrored_noteWithoutReview :
    ¬ Mirrored id 9 (noteWithoutReview ++ [.removeObjectAccess "session" "s" true]) := by
  intro h
  have hcache : ((runCalls id 9 (noteWithoutReview ++
      [.removeObjectAccess "session" "s" true])).cache.get? ⟨"note", "n"⟩).isSome := by
    decide
  have hleads : Leads (runCalls id 9 noteWithoutReview).durableLink ⟨"note", "n"⟩
      (objectKey id "session" "s") :=
    .head (p := ⟨"review", "v"⟩) (by decide) (.head (p := objectKey id "session" "s")
      (by decide) (.refl _))
  have hnone := (h.purged noteWithoutReview "session" "s" rfl ⟨"note", "n"⟩ hleads).1
  rw [hnone] at hcache
  cases hcache

end ZapTrace
