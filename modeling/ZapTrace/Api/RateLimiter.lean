import Mathlib.Algebra.Order.Group.Int
import Mathlib.Data.Int.Cast.Defs
import ZapTrace.Library.Dict

/-!
# The sliding-window rate limiter

A single-process limiter of requests by key. It keeps the times of the allowed checks of each key that
are still in the window, and drops the others when it looks at a key, in a sweep over all keys from
time to time, and in a sweep when the number of keys is at its capacity.

Times are of any type with an order and a subtraction. No law of the subtraction is assumed here.
-/

namespace ZapTrace

structure RateLimitDecision where
  allowed : Bool
  limit : ℤ
  remaining : ℤ
  window_seconds : ℤ
  reason : String := "allowed"
  deriving DecidableEq

/-- The limits, which the constructor requires to be positive. -/
structure RateLimiter where
  limit : ℤ
  window_seconds : ℤ
  max_keys : ℤ
  cleanup_interval_seconds : ℤ
  positive : 0 < min (min limit window_seconds) (min max_keys cleanup_interval_seconds)

/-- The times of the allowed checks by key, and the time of the last sweep. -/
structure RateLimiterState (τ : Type) where
  hits : Dict String (List τ)
  last_cleanup : τ

namespace RateLimiter

section Positive

variable (limiter : RateLimiter)

theorem limit_pos : 0 < limiter.limit := by
  have := limiter.positive
  omega

theorem max_keys_pos : 0 < limiter.max_keys := by
  have := limiter.positive
  omega

end Positive

variable {τ : Type} [LinearOrder τ] [Zero τ] [Sub τ] [IntCast τ]

/-- A limiter without hits. -/
def init : RateLimiterState τ := ⟨Dict.empty, 0⟩

variable (limiter : RateLimiter)

/-- `_prune_key`: the hits of a key that are still in the window, and the table with these. -/
def pruneKey (key : String) (window_start : τ) (table : Dict String (List τ)) :
    List τ × Dict String (List τ) :=
  match ((table.get? key).getD []).dropWhile fun hit => decide (hit ≤ window_start) with
  | [] => ([], table.erase key)
  | hit :: hits => (hit :: hits, table.set key (hit :: hits))

/-- The sweep over all keys. -/
def sweep (window_start : τ) (table : Dict String (List τ)) : Dict String (List τ) :=
  table.keys.foldl (fun table key => (pruneKey key window_start table).2) table

def cleanup (now : τ) (force : Bool) (s : RateLimiterState τ) : RateLimiterState τ :=
  if ¬ force ∧ now - s.last_cleanup < (limiter.cleanup_interval_seconds : τ) then s
  else ⟨sweep (now - (limiter.window_seconds : τ)) s.hits, now⟩

def denied (reason : String) : RateLimitDecision :=
  ⟨false, limiter.limit, 0, limiter.window_seconds, reason⟩

/-- The last part of a check: a hit is added unless the key is at its limit. -/
def takeHit (key : String) (current : τ) (hits : List τ) (s : RateLimiterState τ) :
    RateLimitDecision × RateLimiterState τ :=
  if (hits.length : ℤ) ≥ limiter.limit then (limiter.denied "request-limit", s)
  else
    let hits := hits ++ [current]
    ({ allowed := true, limit := limiter.limit, remaining := max 0 (limiter.limit - hits.length),
       window_seconds := limiter.window_seconds },
      { s with hits := s.hits.set key hits })

def check (key : String) (current : τ) (s : RateLimiterState τ) :
    RateLimitDecision × RateLimiterState τ :=
  let s := limiter.cleanup current false s
  let pruned := pruneKey key (current - (limiter.window_seconds : τ)) s.hits
  let s := { s with hits := pruned.2 }
  if key ∉ s.hits.keys ∧ (s.hits.keys.length : ℤ) ≥ limiter.max_keys then
    let s := limiter.cleanup current true s
    if (s.hits.keys.length : ℤ) ≥ limiter.max_keys then (limiter.denied "key-capacity", s)
    else limiter.takeHit key current [] s
  else limiter.takeHit key current pruned.1 s

def info (key : String) (current : τ) (s : RateLimiterState τ) :
    RateLimitDecision × RateLimiterState τ :=
  let pruned := pruneKey key (current - (limiter.window_seconds : τ)) s.hits
  ({ allowed := (pruned.1.length : ℤ) < limiter.limit, limit := limiter.limit,
     remaining := max 0 (limiter.limit - pruned.1.length), window_seconds := limiter.window_seconds,
     reason := if (pruned.1.length : ℤ) ≥ limiter.limit then "request-limit" else "allowed" },
    { s with hits := pruned.2 })

end RateLimiter

/-! ## Runs -/

/-- A call at a time: a check, a look at a key, or a sweep on its own. -/
inductive RateCall (τ : Type)
  | check (key : String) (now : τ)
  | info (key : String) (now : τ)
  | cleanup (now : τ) (force : Bool)

namespace RateCall

variable {τ : Type}

def now : RateCall τ → τ
  | check _ now | info _ now | cleanup now _ => now

/-- Checks and looks are requests, and have a decision. -/
def isRequest : RateCall τ → Bool
  | check _ _ | info _ _ => true
  | cleanup _ _ => false

end RateCall

namespace RateLimiter

variable {τ : Type} [LinearOrder τ] [Zero τ] [Sub τ] [IntCast τ] (limiter : RateLimiter)

def call (s : RateLimiterState τ) : RateCall τ → Option RateLimitDecision × RateLimiterState τ
  | .check key now => ((limiter.check key now s).1, (limiter.check key now s).2)
  | .info key now => ((limiter.info key now s).1, (limiter.info key now s).2)
  | .cleanup now force => (none, limiter.cleanup now force s)

/-- The key and the time of a check that is allowed. -/
def allowedHit : RateCall τ → Option RateLimitDecision → List (String × τ)
  | .check key now, some decision => if decision.allowed then [(key, now)] else []
  | _, _ => []

/-- What a run of calls leads to: the state, the checks that were allowed, and the decisions. -/
structure RateRun (τ : Type) where
  state : RateLimiterState τ
  log : List (String × τ)
  decisions : List RateLimitDecision

def runCall (r : RateRun τ) (c : RateCall τ) : RateRun τ where
  state := (limiter.call r.state c).2
  log := r.log ++ allowedHit c (limiter.call r.state c).1
  decisions := r.decisions ++ (limiter.call r.state c).1.toList

def run (calls : List (RateCall τ)) : RateRun τ := calls.foldl limiter.runCall ⟨init, [], []⟩

theorem run_concat (calls : List (RateCall τ)) (c : RateCall τ) :
    limiter.run (calls ++ [c]) = limiter.runCall (limiter.run calls) c := by
  simp [run, List.foldl_append]

end RateLimiter

end ZapTrace
