import Mathlib.Algebra.Order.Ring.Rat
import Mathlib.Data.List.Dedup
import Mathlib.Data.List.DropRight
import Mathlib.Data.List.Perm.Subperm
import ZapTrace.Api.RateLimiter

/-!
# What the rate limiter decides

The limiter decides by the checks it has allowed in the window that ends at the time of a call: a check
is allowed when its key has fewer than the limit, and, when the key has none, when fewer keys than the
capacity have one. What the limiter stores is more or less than that, as hits that have left the window
are dropped late. What it keeps is that the hits it stores and the checks it has allowed agree on every
window that ends from now on.

## Main results

* `RateLimiter.call_spec`: a call decides by the window, and the state keeps what it should
* `RateLimiter.run_eq_specRun`: so do all calls of a run
* `RateLimiter.sliding_window`: the limits hold in every run
-/

namespace ZapTrace

open List Dict RateLimiter

namespace RateLimiter

/-! ## The window -/

section Window

variable {τ : Type} [LinearOrder τ] [Sub τ] [IntCast τ] (limiter : RateLimiter)

/-- The times of the allowed checks of a key. -/
def hitsOf (log : List (String × τ)) (key : String) : List τ :=
  (log.filter fun hit => hit.1 = key).map Prod.snd

/-- The time is in the window that ends at `now`. -/
def inWindow (now hit : τ) : Bool := now - (limiter.window_seconds : τ) < hit ∧ hit ≤ now

def windowHits (log : List (String × τ)) (key : String) (now : τ) : List τ :=
  (hitsOf log key).filter (limiter.inWindow now)

/-- The keys with an allowed check in the window. -/
def activeKeys (log : List (String × τ)) (now : τ) : List String :=
  ((log.filter fun hit => limiter.inWindow now hit.2).map Prod.fst).dedup

/-- A check is allowed, the last one of `count` in its window. -/
def granted (count : ℤ) : RateLimitDecision :=
  { allowed := true, limit := limiter.limit, remaining := max 0 (limiter.limit - count),
    window_seconds := limiter.window_seconds }

/-- The decision on a call by the checks that were allowed before. -/
def specDecision (log : List (String × τ)) : RateCall τ → Option RateLimitDecision
  | .check key now =>
    let hits := limiter.windowHits log key now
    if (hits.length : ℤ) ≥ limiter.limit then some (limiter.denied "request-limit")
    else if hits = [] ∧ ((limiter.activeKeys log now).length : ℤ) ≥ limiter.max_keys then
      some (limiter.denied "key-capacity")
    else some (limiter.granted (hits.length + 1))
  | .info key now =>
    let hits := limiter.windowHits log key now
    some { allowed := (hits.length : ℤ) < limiter.limit, limit := limiter.limit,
           remaining := max 0 (limiter.limit - hits.length), window_seconds := limiter.window_seconds,
           reason := if (hits.length : ℤ) ≥ limiter.limit then "request-limit" else "allowed" }
  | .cleanup _ _ => none

/-- The allowed checks and the decisions of a run, by the windows alone. -/
def specRun (calls : List (RateCall τ)) : List (String × τ) × List RateLimitDecision :=
  calls.foldl (fun r c => (r.1 ++ allowedHit c (limiter.specDecision r.1 c),
    r.2 ++ (limiter.specDecision r.1 c).toList)) ([], [])

theorem specRun_concat (calls : List (RateCall τ)) (c : RateCall τ) :
    limiter.specRun (calls ++ [c]) =
      ((limiter.specRun calls).1 ++ allowedHit c (limiter.specDecision (limiter.specRun calls).1 c),
        (limiter.specRun calls).2 ++ (limiter.specDecision (limiter.specRun calls).1 c).toList) := by
  simp [specRun, foldl_append]

theorem inWindow_iff {now hit : τ} :
    limiter.inWindow now hit = true ↔ now - (limiter.window_seconds : τ) < hit ∧ hit ≤ now := by
  simp [inWindow]

omit [LinearOrder τ] [Sub τ] [IntCast τ] in
theorem mem_hitsOf {log : List (String × τ)} {key : String} {hit : τ} :
    hit ∈ hitsOf log key ↔ (key, hit) ∈ log := by
  simp only [hitsOf, mem_map, mem_filter, decide_eq_true_eq]
  constructor
  · rintro ⟨⟨k, t⟩, ⟨hmem, rfl⟩, rfl⟩
    exact hmem
  · exact fun hmem => ⟨(key, hit), ⟨hmem, rfl⟩, rfl⟩

omit [LinearOrder τ] [Sub τ] [IntCast τ] in
theorem hitsOf_concat (log : List (String × τ)) (key k : String) (hit : τ) :
    hitsOf (log ++ [(k, hit)]) key = if k = key then hitsOf log key ++ [hit] else hitsOf log key := by
  by_cases h : k = key
  · simp [hitsOf, h]
  · simp [hitsOf, h]

theorem activeKeys_nodup (log : List (String × τ)) (now : τ) : (limiter.activeKeys log now).Nodup :=
  nodup_dedup _

theorem mem_activeKeys {log : List (String × τ)} {key : String} {now : τ} :
    key ∈ limiter.activeKeys log now ↔ limiter.windowHits log key now ≠ [] := by
  simp only [activeKeys, mem_dedup, mem_map, mem_filter]
  constructor
  · rintro ⟨⟨k, hit⟩, ⟨hmem, hwindow⟩, rfl⟩
    apply ne_nil_of_mem
    exact mem_filter.mpr ⟨mem_hitsOf.mpr hmem, hwindow⟩
  · intro h
    obtain ⟨hit, hhit⟩ := exists_mem_of_ne_nil _ h
    obtain ⟨hmem, hwindow⟩ := mem_filter.mp hhit
    exact ⟨(key, hit), ⟨mem_hitsOf.mp hmem, hwindow⟩, rfl⟩

end Window

/-! ## Pruning -/

section Prune

variable {τ : Type} [LinearOrder τ]

theorem dropWhile_eq_filter {hits : List τ} (h : hits.Pairwise (· ≤ ·)) (window_start : τ) :
    hits.dropWhile (fun hit => decide (hit ≤ window_start)) =
      hits.filter fun hit => decide (window_start < hit) := by
  induction hits with
  | nil => rfl
  | cons hit hits ih =>
    obtain ⟨hle, hhits⟩ := pairwise_cons.mp h
    by_cases hstart : hit ≤ window_start
    · rw [dropWhile_cons_of_pos (by simpa using hstart),
        filter_cons_of_neg (by simpa using hstart), ih hhits]
    · have hall : ∀ other ∈ hit :: hits, decide (window_start < other) = true := by
        intro other hother
        rcases mem_cons.mp hother with rfl | hother
        · simpa using hstart
        · exact decide_eq_true (lt_of_lt_of_le (not_le.mp hstart) (hle other hother))
      rw [dropWhile_cons_of_neg (by simpa using hstart), filter_eq_self.mpr hall]

def prunedHits (window_start : τ) (entry : Option (List τ)) : Option (List τ) :=
  match (entry.getD []).dropWhile fun hit => decide (hit ≤ window_start) with
  | [] => none
  | hit :: hits => some (hit :: hits)

theorem getD_prunedHits (window_start : τ) (entry : Option (List τ)) :
    (prunedHits window_start entry).getD [] =
      (entry.getD []).dropWhile fun hit => decide (hit ≤ window_start) := by
  unfold prunedHits
  split
  · rename_i h
    exact h.symm
  · rename_i h
    exact h.symm

theorem prunedHits_idem (window_start : τ) (entry : Option (List τ)) :
    prunedHits window_start (prunedHits window_start entry) = prunedHits window_start entry := by
  have h := getD_prunedHits window_start entry
  unfold prunedHits at h ⊢
  rw [h, dropWhile_idempotent]

theorem pruneKey_fst (key : String) (window_start : τ) (table : Dict String (List τ)) :
    (pruneKey key window_start table).1 = (prunedHits window_start (table.get? key)).getD [] := by
  rw [getD_prunedHits]
  unfold pruneKey
  split
  · rename_i h
    exact h.symm
  · rename_i h
    exact h.symm

theorem get?_pruneKey (key k : String) (window_start : τ) (table : Dict String (List τ)) :
    (pruneKey key window_start table).2.get? k =
      if k = key then prunedHits window_start (table.get? key) else table.get? k := by
  unfold pruneKey prunedHits
  split
  · rename_i h
    simp only [h]
    exact get?_erase table key k
  · rename_i h
    simp only [h]
    exact get?_set table key k _

theorem length_keys_pruneKey_le (key : String) (window_start : τ) (table : Dict String (List τ)) :
    (pruneKey key window_start table).2.keys.length ≤ table.keys.length := by
  unfold pruneKey
  split
  · exact length_keys_erase_le table key
  · rename_i hit hits h
    have hmem : key ∈ table.keys := by
      by_contra hnot
      rw [not_mem_keys_iff.mp hnot] at h
      cases h
    rw [keys_set_of_mem hmem]

theorem sweep_spec (window_start : τ) (table : Dict String (List τ)) :
    (∀ key, (sweep window_start table).get? key = prunedHits window_start (table.get? key)) ∧
      (sweep window_start table).keys.length ≤ table.keys.length := by
  have hfold : ∀ keys : List String,
      (∀ key, (keys.foldl (fun table key => (pruneKey key window_start table).2) table).get? key =
        if key ∈ keys then prunedHits window_start (table.get? key) else table.get? key) ∧
      (keys.foldl (fun table key => (pruneKey key window_start table).2) table).keys.length ≤
        table.keys.length := by
    intro keys
    induction keys using reverseRecOn with
    | nil => exact ⟨fun key => rfl, le_rfl⟩
    | append_singleton keys k ih =>
      obtain ⟨hget, hlength⟩ := ih
      rw [foldl_append, foldl_cons, foldl_nil]
      refine ⟨fun key => ?_, (length_keys_pruneKey_le _ _ _).trans hlength⟩
      rw [get?_pruneKey, hget]
      by_cases hkey : key = k
      · subst hkey
        by_cases hmem : key ∈ keys
        · simp [hmem, prunedHits_idem]
        · simp [hmem]
      · simp [hkey, hget]
  obtain ⟨hget, hlength⟩ := hfold table.keys
  refine ⟨fun key => (hget key).trans ?_, hlength⟩
  split
  · rfl
  · rename_i hnot
    rw [not_mem_keys_iff.mp hnot]
    rfl

end Prune

/-! ## What the state keeps -/

section Refines

variable {τ : Type} [LinearOrder τ] [Sub τ] [IntCast τ] {limiter : RateLimiter}

/-- The hits that are stored, and the checks that were allowed up to now, agree on every window that
ends now or later. -/
structure Refines (limiter : RateLimiter) (s : RateLimiterState τ) (log : List (String × τ))
    (now : τ) : Prop where
  past : ∀ hit ∈ log, hit.2 ≤ now
  stored : ∀ key hits, s.hits.get? key = some hits →
    hits ≠ [] ∧ hits.Pairwise (· ≤ ·) ∧ ∀ hit ∈ hits, hit ≤ now
  kept : ∀ key later, now ≤ later →
    ((s.hits.get? key).getD []).filter (fun hit => later - (limiter.window_seconds : τ) < hit) =
      (hitsOf log key).filter fun hit => later - (limiter.window_seconds : τ) < hit
  bounded : (s.hits.keys.length : ℤ) ≤ limiter.max_keys

variable {s : RateLimiterState τ} {log : List (String × τ)} {now : τ} {key : String}

theorem Refines.mono (h : Refines limiter s log now) {later : τ} (hle : now ≤ later) :
    Refines limiter s log later :=
  ⟨fun hit hhit => (h.past hit hhit).trans hle,
    fun key hits hhits => ⟨(h.stored key hits hhits).1, (h.stored key hits hhits).2.1,
      fun hit hhit => ((h.stored key hits hhits).2.2 hit hhit).trans hle⟩,
    fun key t ht => h.kept key t (hle.trans ht), h.bounded⟩

theorem Refines.ascending (h : Refines limiter s log now) (key : String) :
    ((s.hits.get? key).getD []).Pairwise (· ≤ ·) ∧ ∀ hit ∈ (s.hits.get? key).getD [], hit ≤ now := by
  cases hget : s.hits.get? key with
  | none => exact ⟨List.Pairwise.nil, fun hit hhit => absurd hhit not_mem_nil⟩
  | some hits => exact (h.stored key hits hget).2

theorem Refines.windowHits_eq (h : Refines limiter s log now) (key : String) :
    (prunedHits (now - (limiter.window_seconds : τ)) (s.hits.get? key)).getD [] =
      limiter.windowHits log key now := by
  rw [getD_prunedHits, dropWhile_eq_filter (h.ascending key).1, h.kept key now le_rfl, windowHits]
  apply filter_congr
  intro hit hhit
  have hpast := h.past _ (mem_hitsOf.mp hhit)
  simp [inWindow, hpast]

theorem Refines.pruned (h : Refines limiter s log now)
    (hsub : Monotone fun t : τ => t - (limiter.window_seconds : τ)) {s' : RateLimiterState τ}
    (hget : ∀ key, s'.hits.get? key = s.hits.get? key ∨
      s'.hits.get? key = prunedHits (now - (limiter.window_seconds : τ)) (s.hits.get? key))
    (hlength : s'.hits.keys.length ≤ s.hits.keys.length) : Refines limiter s' log now where
  past := h.past
  stored := by
    intro key hits hhits
    rcases hget key with hsame | hpruned
    · exact h.stored key hits (hsame ▸ hhits)
    · have hfilter := getD_prunedHits (now - (limiter.window_seconds : τ)) (s.hits.get? key)
      rw [dropWhile_eq_filter (h.ascending key).1, ← hpruned, hhits, Option.getD_some] at hfilter
      refine ⟨?_, hfilter ▸ (h.ascending key).1.filter _, ?_⟩
      swap
      · rw [hfilter]
        exact fun hit hhit => (h.ascending key).2 hit (mem_filter.mp hhit).1
      rintro rfl
      rw [hhits] at hpruned
      unfold prunedHits at hpruned
      split at hpruned <;> cases hpruned
  kept := by
    intro key later hlater
    rcases hget key with hsame | hpruned
    · rw [hsame]
      exact h.kept key later hlater
    · rw [hpruned, getD_prunedHits, dropWhile_eq_filter (h.ascending key).1, ← h.kept key later hlater,
        filter_filter]
      apply filter_congr
      intro hit _
      -- what has left the window now has left it later
      have hle := hsub hlater
      dsimp only at hle
      by_cases hhit : later - (limiter.window_seconds : τ) < hit
      · simp [hhit, lt_of_le_of_lt hle hhit]
      · simp [hhit]
  bounded := by
    have := h.bounded
    omega

theorem Refines.activeKeys_le (h : Refines limiter s log now) :
    (limiter.activeKeys log now).length ≤ s.hits.keys.length := by
  apply List.Subperm.length_le
  apply (limiter.activeKeys_nodup log now).subperm
  intro key hkey
  rw [mem_activeKeys, ← h.windowHits_eq] at hkey
  by_contra hnot
  rw [not_mem_keys_iff.mp hnot] at hkey
  exact hkey rfl

theorem Refines.length_keys_sweep (h : Refines limiter s log now) :
    (sweep (now - (limiter.window_seconds : τ)) s.hits).keys.length =
      (limiter.activeKeys log now).length := by
  obtain ⟨hget, -⟩ := sweep_spec (now - (limiter.window_seconds : τ)) s.hits
  apply List.Perm.length_eq
  rw [perm_ext_iff_of_nodup (keys_nodup _) (limiter.activeKeys_nodup log now)]
  intro key
  rw [mem_activeKeys, ← h.windowHits_eq key, mem_keys_iff, hget key]
  unfold prunedHits
  split <;> simp

theorem Refines.cleanup (h : Refines limiter s log now)
    (hsub : Monotone fun t : τ => t - (limiter.window_seconds : τ)) (force : Bool) :
    Refines limiter (limiter.cleanup now force s) log now := by
  unfold RateLimiter.cleanup
  split
  · exact h
  · obtain ⟨hget, hlength⟩ := sweep_spec (now - (limiter.window_seconds : τ)) s.hits
    exact h.pruned hsub (fun key => Or.inr (hget key)) hlength

theorem Refines.pruneKey (h : Refines limiter s log now)
    (hsub : Monotone fun t : τ => t - (limiter.window_seconds : τ)) (key : String) :
    Refines limiter
      { s with hits := (pruneKey key (now - (limiter.window_seconds : τ)) s.hits).2 } log now := by
  refine h.pruned hsub (fun k => ?_) (length_keys_pruneKey_le _ _ _)
  rw [get?_pruneKey]
  split
  · rename_i hkey
    exact Or.inr (by rw [hkey])
  · exact Or.inl rfl

/-- A key that is not at its limit takes a hit, when there is an entry for it. -/
theorem Refines.takeHit (h : Refines limiter s log now)
    (hroom : key ∈ s.hits.keys ∨ (s.hits.keys.length : ℤ) < limiter.max_keys) :
    Refines limiter { s with hits := s.hits.set key ((s.hits.get? key).getD [] ++ [now]) }
      (log ++ [(key, now)]) now where
  past := by
    intro hit hhit
    rcases mem_append.mp hhit with hhit | hhit
    · exact h.past hit hhit
    · rw [mem_singleton.mp hhit]
  stored := by
    intro k hits hhits
    rw [get?_set] at hhits
    split at hhits
    · obtain rfl := Option.some.inj hhits
      obtain ⟨hascending, hpast⟩ := h.ascending key
      refine ⟨by simp, pairwise_append.mpr ⟨hascending, pairwise_singleton _ _, ?_⟩, ?_⟩
      · intro hit hhit t ht
        rw [mem_singleton.mp ht]
        exact hpast hit hhit
      · intro hit hhit
        rcases mem_append.mp hhit with hhit | hhit
        · exact hpast hit hhit
        · exact (mem_singleton.mp hhit).le
    · exact h.stored k hits hhits
  kept := by
    intro k later hlater
    rw [get?_set, hitsOf_concat]
    by_cases hk : k = key
    · subst hk
      rw [if_pos rfl, if_pos rfl, Option.getD_some, filter_append, filter_append,
        h.kept k later hlater]
    · rw [if_neg hk, if_neg fun h => hk h.symm]
      exact h.kept k later hlater
  bounded := by
    rcases hroom with hmem | hlt
    · rw [keys_set_of_mem hmem]
      exact h.bounded
    · by_cases hmem : key ∈ s.hits.keys
      · rw [keys_set_of_mem hmem]
        exact h.bounded
      · rw [keys_set_of_not_mem hmem, length_append, length_singleton]
        push_cast
        omega

end Refines

/-! ## Calls and runs -/

section Calls

variable {τ : Type} [LinearOrder τ] [Sub τ] [IntCast τ] {limiter : RateLimiter}
  {s : RateLimiterState τ} {log : List (String × τ)} {now : τ} {key : String}

theorem Refines.takeHit_spec (h : Refines limiter s log now)
    (hhits : (s.hits.get? key).getD [] = limiter.windowHits log key now)
    (hroom : key ∈ s.hits.keys ∨ (s.hits.keys.length : ℤ) < limiter.max_keys) :
    (¬ ((limiter.windowHits log key now).length : ℤ) < limiter.limit →
      limiter.takeHit key now (limiter.windowHits log key now) s = (limiter.denied "request-limit", s)) ∧
    (((limiter.windowHits log key now).length : ℤ) < limiter.limit →
      ∃ s', limiter.takeHit key now (limiter.windowHits log key now) s =
        (limiter.granted ((limiter.windowHits log key now).length + 1), s') ∧
        Refines limiter s' (log ++ [(key, now)]) now) := by
  constructor
  · intro hlimit
    rw [RateLimiter.takeHit, if_pos (not_lt.mp hlimit)]
  · intro hlimit
    refine ⟨_, ?_, hhits ▸ h.takeHit hroom⟩
    rw [RateLimiter.takeHit, if_neg (not_le.mpr hlimit)]
    simp [granted]

theorem specDecision_of_limit
    (h : ¬ ((limiter.windowHits log key now).length : ℤ) < limiter.limit) :
    limiter.specDecision log (.check key now) = some (limiter.denied "request-limit") := by
  simp only [specDecision]
  rw [if_pos (not_lt.mp h)]

theorem specDecision_of_capacity (h : limiter.windowHits log key now = [])
    (hcapacity : ¬ ((limiter.activeKeys log now).length : ℤ) < limiter.max_keys) :
    limiter.specDecision log (.check key now) = some (limiter.denied "key-capacity") := by
  have hlimit := limiter.limit_pos
  simp only [specDecision, h]
  rw [if_neg (by simpa using hlimit), if_pos ⟨trivial, not_lt.mp hcapacity⟩]

theorem specDecision_of_room (h : ((limiter.windowHits log key now).length : ℤ) < limiter.limit)
    (hroom : limiter.windowHits log key now = [] →
      ((limiter.activeKeys log now).length : ℤ) < limiter.max_keys) :
    limiter.specDecision log (.check key now) =
      some (limiter.granted ((limiter.windowHits log key now).length + 1)) := by
  simp only [specDecision]
  rw [if_neg (not_le.mpr h), if_neg fun hfull => not_le.mpr (hroom hfull.1) hfull.2]

theorem allowedHit_specDecision (limiter : RateLimiter) (log : List (String × τ)) (c : RateCall τ) :
    allowedHit c (limiter.specDecision log c) = [] ∨
      ∃ key now, c = .check key now ∧
        allowedHit c (limiter.specDecision log c) = [(key, now)] ∧
        ((limiter.windowHits log key now).length : ℤ) < limiter.limit := by
  cases c with
  | info key now => exact Or.inl rfl
  | cleanup now force => exact Or.inl rfl
  | check key now =>
    by_cases hlimit : ((limiter.windowHits log key now).length : ℤ) < limiter.limit
    · by_cases hroom : limiter.windowHits log key now = [] →
          ((limiter.activeKeys log now).length : ℤ) < limiter.max_keys
      · rw [specDecision_of_room hlimit hroom]
        exact Or.inr ⟨key, now, rfl, rfl, hlimit⟩
      · rw [Classical.not_imp] at hroom
        rw [specDecision_of_capacity hroom.1 hroom.2]
        exact Or.inl rfl
    · rw [specDecision_of_limit hlimit]
      exact Or.inl rfl

theorem Refines.takeHit_eq_spec (h : Refines limiter s log now)
    (hhits : (s.hits.get? key).getD [] = limiter.windowHits log key now)
    (hroom : key ∈ s.hits.keys ∨ (s.hits.keys.length : ℤ) < limiter.max_keys)
    (hactive : limiter.windowHits log key now = [] →
      ((limiter.activeKeys log now).length : ℤ) < limiter.max_keys) :
    some (limiter.takeHit key now (limiter.windowHits log key now) s).1 =
        limiter.specDecision log (.check key now) ∧
      Refines limiter (limiter.takeHit key now (limiter.windowHits log key now) s).2
        (log ++ allowedHit (.check key now) (limiter.specDecision log (.check key now))) now := by
  obtain ⟨hdeny, hgrant⟩ := h.takeHit_spec hhits hroom
  by_cases hlimit : ((limiter.windowHits log key now).length : ℤ) < limiter.limit
  · obtain ⟨s', hgranted, hs'⟩ := hgrant hlimit
    rw [specDecision_of_room hlimit hactive, hgranted]
    exact ⟨rfl, hs'⟩
  · rw [specDecision_of_limit hlimit, hdeny hlimit]
    refine ⟨rfl, ?_⟩
    show Refines limiter s (log ++ []) now
    rwa [append_nil]

/-- **A check decides by the window**, and the state keeps what it should. -/
theorem check_spec (hsub : Monotone fun t : τ => t - (limiter.window_seconds : τ))
    (h : Refines limiter s log now) (key : String) :
    some (limiter.check key now s).1 = limiter.specDecision log (.check key now) ∧
      Refines limiter (limiter.check key now s).2
        (log ++ allowedHit (.check key now) (limiter.specDecision log (.check key now))) now := by
  have hlimit := limiter.limit_pos
  have hswept := h.cleanup hsub false
  have hpruned := hswept.pruneKey hsub key
  have hhits := hswept.windowHits_eq key
  rw [← pruneKey_fst] at hhits
  -- the table after the key is pruned
  generalize hs' : limiter.cleanup now false s = s₁ at *
  set s₂ : RateLimiterState τ :=
    { s₁ with hits := (pruneKey key (now - (limiter.window_seconds : τ)) s₁.hits).2 }
    with hs₂
  have hget : (s₂.hits.get? key).getD [] = limiter.windowHits log key now := by
    rw [hs₂, ← hhits, pruneKey_fst]
    show (((pruneKey key _ s₁.hits).2.get? key).getD []) = _
    rw [get?_pruneKey, if_pos rfl]
  have hkey : key ∈ s₂.hits.keys ↔ limiter.windowHits log key now ≠ [] := by
    rw [← hget]
    constructor
    · intro hmem
      obtain ⟨hits, hsome⟩ := mem_keys_iff.mp hmem
      rw [hsome]
      exact (hpruned.stored key hits hsome).1
    · intro hne
      by_contra hnot
      rw [not_mem_keys_iff.mp hnot] at hne
      exact hne rfl
  have hcheck : limiter.check key now s =
      if key ∉ s₂.hits.keys ∧ (s₂.hits.keys.length : ℤ) ≥ limiter.max_keys then
        if ((limiter.cleanup now true s₂).hits.keys.length : ℤ) ≥ limiter.max_keys then
          (limiter.denied "key-capacity", limiter.cleanup now true s₂)
        else limiter.takeHit key now [] (limiter.cleanup now true s₂)
      else limiter.takeHit key now (limiter.windowHits log key now) s₂ := by
    rw [← hhits]
    simp only [check, hs', hs₂]
  by_cases hfull : key ∉ s₂.hits.keys ∧ (s₂.hits.keys.length : ℤ) ≥ limiter.max_keys
  · -- the key is new and the table is full: the sweep leaves the active keys
    have hnone : limiter.windowHits log key now = [] := by
      by_contra hne
      exact hfull.1 (hkey.mpr hne)
    have hforced : limiter.cleanup now true s₂ =
        ⟨sweep (now - (limiter.window_seconds : τ)) s₂.hits, now⟩ := by
      simp [RateLimiter.cleanup]
    have hlength := hpruned.length_keys_sweep
    have hswept₃ := hpruned.cleanup hsub true
    rw [hforced] at hcheck hswept₃
    dsimp only at hcheck
    rw [if_pos hfull, hlength] at hcheck
    by_cases hcapacity : ((limiter.activeKeys log now).length : ℤ) < limiter.max_keys
    · rw [hcheck, if_neg (not_le.mpr hcapacity), ← hnone]
      apply hswept₃.takeHit_eq_spec
      · obtain ⟨hgets, -⟩ := sweep_spec (now - (limiter.window_seconds : τ)) s₂.hits
        dsimp only
        rw [hgets, not_mem_keys_iff.mp hfull.1, hnone]
        rfl
      · right
        dsimp only
        rw [hlength]
        exact hcapacity
      · exact fun _ => hcapacity
    · rw [hcheck, if_pos (not_lt.mp hcapacity), specDecision_of_capacity hnone hcapacity]
      refine ⟨rfl, ?_⟩
      show Refines limiter _ (log ++ []) now
      rwa [append_nil]
  · rw [hcheck, if_neg hfull]
    have hroom : key ∈ s₂.hits.keys ∨ (s₂.hits.keys.length : ℤ) < limiter.max_keys := by
      by_contra hnot
      rw [not_or] at hnot
      exact hfull ⟨hnot.1, not_lt.mp hnot.2⟩
    apply hpruned.takeHit_eq_spec hget hroom
    intro hnone
    have hlt := hroom.resolve_left fun hmem => hkey.mp hmem hnone
    have hle := hpruned.activeKeys_le
    omega

theorem info_spec (hsub : Monotone fun t : τ => t - (limiter.window_seconds : τ))
    (h : Refines limiter s log now) (key : String) :
    some (limiter.info key now s).1 = limiter.specDecision log (.info key now) ∧
      Refines limiter (limiter.info key now s).2 log now := by
  have hhits := h.windowHits_eq key
  rw [← pruneKey_fst] at hhits
  refine ⟨?_, h.pruneKey hsub key⟩
  simp only [info, specDecision, hhits]

/-- **A call decides by the window**, and the state keeps what it should. -/
theorem call_spec (hsub : Monotone fun t : τ => t - (limiter.window_seconds : τ)) (c : RateCall τ)
    (h : Refines limiter s log c.now) :
    (limiter.call s c).1 = limiter.specDecision log c ∧
      Refines limiter (limiter.call s c).2
        (log ++ allowedHit c (limiter.specDecision log c)) c.now := by
  cases c with
  | check key now => exact check_spec hsub h key
  | info key now =>
    obtain ⟨hdecision, hs⟩ := info_spec hsub h key
    refine ⟨hdecision, ?_⟩
    show Refines limiter (limiter.info key now s).2 (log ++ []) now
    rwa [append_nil]
  | cleanup now force =>
    refine ⟨rfl, ?_⟩
    show Refines limiter (limiter.cleanup now force s) (log ++ []) now
    rw [append_nil]
    exact h.cleanup hsub force

theorem specRun_filter_isRequest (calls : List (RateCall τ)) :
    limiter.specRun (calls.filter RateCall.isRequest) = limiter.specRun calls := by
  induction calls using reverseRecOn with
  | nil => rfl
  | append_singleton calls c ih =>
    rw [filter_append, specRun_concat]
    cases c with
    | check key now => exact (specRun_concat limiter _ _).trans (by rw [ih])
    | info key now => exact (specRun_concat limiter _ _).trans (by rw [ih])
    | cleanup now force =>
      have hnone : ([RateCall.cleanup now force] : List (RateCall τ)).filter RateCall.isRequest = [] :=
        rfl
      rw [hnone, append_nil, ih]
      exact Prod.ext (append_nil _).symm (append_nil _).symm

theorem specRun_congr {limiter' : RateLimiter} (hlimit : limiter'.limit = limiter.limit)
    (hwindow : limiter'.window_seconds = limiter.window_seconds)
    (hkeys : limiter'.max_keys = limiter.max_keys) (calls : List (RateCall τ)) :
    limiter'.specRun calls = limiter.specRun calls := by
  obtain ⟨limit, window_seconds, max_keys, cleanup_interval_seconds, hpositive⟩ := limiter
  obtain ⟨limit', window_seconds', max_keys', cleanup_interval_seconds', hpositive'⟩ := limiter'
  obtain rfl : limit' = limit := hlimit
  obtain rfl : window_seconds' = window_seconds := hwindow
  obtain rfl : max_keys' = max_keys := hkeys
  rfl

end Calls

section Runs

variable {τ : Type} [LinearOrder τ] [Zero τ] [Sub τ] [IntCast τ] {limiter : RateLimiter}

theorem refines_init (now : τ) : Refines limiter init [] now where
  past := fun hit hhit => absurd hhit not_mem_nil
  stored := fun key hits hhits => by cases hhits
  kept := fun key later _ => rfl
  bounded := limiter.max_keys_pos.le

/-- Runs of calls at times that do not decrease decide by the windows. -/
theorem run_eq_specRun (hsub : Monotone fun t : τ => t - (limiter.window_seconds : τ))
    {calls : List (RateCall τ)} (htimes : (calls.map RateCall.now).Pairwise (· ≤ ·)) :
    ((limiter.run calls).log, (limiter.run calls).decisions) = limiter.specRun calls ∧
      ∀ now, (∀ c ∈ calls, c.now ≤ now) →
        Refines limiter (limiter.run calls).state (limiter.run calls).log now := by
  induction calls using reverseRecOn with
  | nil => exact ⟨rfl, fun now _ => refines_init now⟩
  | append_singleton calls c ih =>
    rw [map_append, pairwise_append] at htimes
    obtain ⟨htimes, -, hlast⟩ := htimes
    obtain ⟨hspec, hrefines⟩ := ih htimes
    have hbefore : ∀ c' ∈ calls, c'.now ≤ c.now := fun c' hc' =>
      hlast _ (mem_map_of_mem hc') _ mem_cons_self
    obtain ⟨hdecision, hs⟩ := call_spec hsub c (hrefines c.now hbefore)
    rw [run_concat, specRun_concat, ← hspec]
    simp only [runCall, hdecision]
    refine ⟨trivial, fun now hnow => hs.mono (hnow c ?_)⟩
    exact mem_append_right _ (mem_singleton_self _)

/-- A window never has more allowed checks of a key than the limit. -/
theorem length_windowHits_le (hsub : Monotone fun t : τ => t - (limiter.window_seconds : τ))
    {calls : List (RateCall τ)} (htimes : (calls.map RateCall.now).Pairwise (· ≤ ·)) (key : String)
    (t : τ) :
    ((limiter.windowHits (limiter.run calls).log key t).length : ℤ) ≤ limiter.limit := by
  induction calls using reverseRecOn with
  | nil => exact limiter.limit_pos.le
  | append_singleton calls c ih =>
    rw [map_append, pairwise_append] at htimes
    obtain ⟨htimes, -, hlast⟩ := htimes
    have hbefore : ∀ c' ∈ calls, c'.now ≤ c.now := fun c' hc' =>
      hlast _ (mem_map_of_mem hc') _ mem_cons_self
    have hrefines := (run_eq_specRun hsub htimes).2 c.now hbefore
    obtain ⟨hdecision, -⟩ := call_spec hsub c hrefines
    have hlog : (limiter.run (calls ++ [c])).log =
        (limiter.run calls).log ++
          allowedHit c (limiter.specDecision (limiter.run calls).log c) := by
      rw [run_concat, ← hdecision]
      rfl
    have hcases := allowedHit_specDecision limiter (limiter.run calls).log c
    rw [hlog]
    rcases hcases with hnone | ⟨k, now, rfl, hsome, hlimit⟩
    · rw [hnone, append_nil]
      exact ih htimes
    · rw [hsome, windowHits, hitsOf_concat]
      split
      · rename_i hkey
        subst hkey
        rw [filter_append]
        by_cases hwindow : limiter.inWindow t now = true
        · -- the checks of the window that ends at `t` are in the one that ends at the last of them
          have hsame : (hitsOf (limiter.run calls).log k).filter (limiter.inWindow t) =
              (limiter.windowHits (limiter.run calls).log k now).filter (limiter.inWindow t) := by
            rw [windowHits, filter_filter]
            apply filter_congr
            intro hit hhit
            have hpast : hit ≤ now := hrefines.past _ (mem_hitsOf.mp hhit)
            have hle := hsub (limiter.inWindow_iff.mp hwindow).2
            dsimp only at hle
            by_cases hin : limiter.inWindow t hit = true
            · have hstart := lt_of_le_of_lt hle (limiter.inWindow_iff.mp hin).1
              rw [hin, limiter.inWindow_iff.mpr ⟨hstart, hpast⟩]
              rfl
            · simp [hin]
          have hle := length_filter_le (limiter.inWindow t)
            (limiter.windowHits (limiter.run calls).log k now)
          rw [hsame, length_append, filter_cons_of_pos hwindow, filter_nil,
            length_singleton]
          push_cast
          omega
        · rw [filter_cons_of_neg hwindow, filter_nil, append_nil]
          exact ih htimes
      · exact ih htimes

/-- **The sliding window**: in every run of calls at times that do not decrease,
* a check is allowed exactly when its key has fewer than the limit of allowed checks in the window that
  ends at its time, and, when it has none, when fewer keys than the capacity have one;
* no window has more allowed checks of a key than the limit;
* the number of stored keys stays within the capacity;
* the decisions are the same without the cleanups of the run and at any other cleanup interval. -/
theorem sliding_window (hsub : Monotone fun t : τ => t - (limiter.window_seconds : τ))
    {calls : List (RateCall τ)} (htimes : (calls.map RateCall.now).Pairwise (· ≤ ·)) :
    (∀ pre key now post, calls = pre ++ .check key now :: post →
      ((limiter.check key now (limiter.run pre).state).1.allowed = true ↔
        ((limiter.windowHits (limiter.run pre).log key now).length : ℤ) < limiter.limit ∧
          (limiter.windowHits (limiter.run pre).log key now = [] →
            ((limiter.activeKeys (limiter.run pre).log now).length : ℤ) < limiter.max_keys))) ∧
    (∀ key t, ((limiter.windowHits (limiter.run calls).log key t).length : ℤ) ≤ limiter.limit) ∧
    (∀ pre, pre <+: calls →
      ((limiter.run pre).state.hits.keys.length : ℤ) ≤ limiter.max_keys) ∧
    ∀ limiter' : RateLimiter, limiter'.limit = limiter.limit →
      limiter'.window_seconds = limiter.window_seconds → limiter'.max_keys = limiter.max_keys →
      (limiter'.run (calls.filter RateCall.isRequest)).decisions = (limiter.run calls).decisions := by
  refine ⟨?_, length_windowHits_le hsub htimes, ?_, ?_⟩
  · rintro pre key now post rfl
    rw [map_append, pairwise_append] at htimes
    obtain ⟨hpre, -, hlast⟩ := htimes
    have hbefore : ∀ c ∈ pre, c.now ≤ now := fun c hc =>
      hlast _ (mem_map_of_mem hc) _ mem_cons_self
    obtain ⟨hdecision, -⟩ := check_spec hsub ((run_eq_specRun hsub hpre).2 now hbefore) key
    constructor
    · intro hallowed
      by_contra hnot
      rw [not_and_or, Classical.not_imp] at hnot
      rcases hnot with hlimit | ⟨hnone, hcapacity⟩
      · rw [specDecision_of_limit hlimit] at hdecision
        rw [Option.some.inj hdecision] at hallowed
        cases hallowed
      · rw [specDecision_of_capacity hnone hcapacity] at hdecision
        rw [Option.some.inj hdecision] at hallowed
        cases hallowed
    · rintro ⟨hlimit, hroom⟩
      rw [specDecision_of_room hlimit hroom] at hdecision
      rw [Option.some.inj hdecision]
      rfl
  · rintro pre ⟨post, rfl⟩
    rw [map_append, pairwise_append] at htimes
    obtain ⟨hpre, -, -⟩ := htimes
    induction pre using reverseRecOn with
    | nil => exact limiter.max_keys_pos.le
    | append_singleton pre c _ =>
      refine ((run_eq_specRun hsub hpre).2 c.now fun c' hc' => ?_).bounded
      rw [map_append, pairwise_append] at hpre
      rcases mem_append.mp hc' with hc' | hc'
      · exact hpre.2.2 _ (mem_map_of_mem hc') _ mem_cons_self
      · rw [mem_singleton.mp hc']
  · intro limiter' hlimit hwindow hkeys
    have hsub' : Monotone fun t : τ => t - (limiter'.window_seconds : τ) := by
      rw [hwindow]
      exact hsub
    have htimes' : ((calls.filter RateCall.isRequest).map RateCall.now).Pairwise (· ≤ ·) :=
      htimes.sublist (List.Sublist.map _ filter_sublist)
    have h := (run_eq_specRun hsub htimes).1
    have h' := (run_eq_specRun hsub' htimes').1
    rw [specRun_filter_isRequest, specRun_congr hlimit hwindow hkeys, ← h] at h'
    exact congrArg Prod.snd h'

end Runs

/-! ## A run -/

def twoPerTen : RateLimiter := ⟨2, 10, 2, 5, by decide⟩

/-- Two clients fill the table, and a third one comes when their checks have left the window. -/
def threeClients : List (RateCall ℚ) :=
  [.check "client-a" 0, .check "client-a" 1, .check "client-a" 2, .check "client-b" 2,
    .check "client-c" 20]

/-- The third client is allowed. -/
theorem sliding_window_threeClients :
    (twoPerTen.check "client-c" 20 (twoPerTen.run (threeClients.take 4)).state).1.allowed = true := by
  have hsub : Monotone fun t : ℚ => t - (twoPerTen.window_seconds : ℚ) := fun a b h =>
    sub_le_sub_right h _
  apply ((sliding_window hsub (by decide : (threeClients.map RateCall.now).Pairwise _)).1
    (threeClients.take 4) "client-c" 20 [] rfl).mpr
  refine ⟨by with_unfolding_all decide, fun _ => by with_unfolding_all decide⟩

end RateLimiter

end ZapTrace
