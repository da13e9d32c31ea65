import NornRpc.TokenBucket.Burst
import Mathlib.Logic.Function.Basic

/-!
# The per-method limiter

`PerMethodLimiter` of `rate_limiting_utilities.py`: a dictionary from method names to token
buckets, read and written under one lock. `register_method` stores a fresh bucket, built at the
call's clock reading, over whatever the name held; `try_acquire(method)` runs that bucket's
`try_acquire()` (one token) at the call's reading and keeps the updated bucket, or returns `True`
for a name never registered. When the bucket's `try_acquire` raises, so does the limiter's, and
as the bucket raises before it writes anything, nothing changes.

The registry is a family of independent buckets (`limiter_isolation`). Each call touches at most
the entry of its own name (`step_limiters_of_ne`), so what a name's entry becomes depends only on
that entry and the calls on that name (`run_limiters_congr`). After a name's last registration,
its entry is the fresh bucket fed the name's `try_acquire` calls since, as `try_acquire(1)` calls
(`run_limiters_of_not_registers`); with no registration at all the entry stays empty. So the
bucket's window bound holds of each name's calls since its last registration, whatever the other
names do (`method_burst_bound`).
-/

namespace NornRpc

/-- A per-method limiter's field `limiters`: the bucket of each registered name. -/
structure PerMethodLimiter where
  limiters : String → Option TokenBucket

namespace PerMethodLimiter

variable (R : Rounding)

/-- `PerMethodLimiter()`: no name registered. -/
def init : PerMethodLimiter := ⟨fun _ => none⟩

/-- `register_method(method, capacity, refill_rate)` at clock reading `now`. -/
def registerMethod (p : PerMethodLimiter) (method : String) (capacity : ℤ) (refillRate : PyFloat)
    (now : ℚ) : PerMethodLimiter :=
  ⟨Function.update p.limiters method (some (TokenBucket.init capacity refillRate now))⟩

/-- `try_acquire(method)` at clock reading `now`. -/
def tryAcquire (p : PerMethodLimiter) (method : String) (now : ℚ) :
    Except PyError (Bool × PerMethodLimiter) :=
  match p.limiters method with
  | some b =>
    (b.tryAcquire R 1 now).map fun r => (r.1, ⟨Function.update p.limiters method (some r.2)⟩)
  | none => .ok (true, p)

/-! ### Calls and runs -/

/-- One call on the registry, at clock reading `now`. -/
inductive Call where
  | registerMethod (method : String) (capacity : ℤ) (refillRate : PyFloat) (now : ℚ)
  | tryAcquire (method : String) (now : ℚ)
  deriving DecidableEq, Repr

/-- The name a call is about. -/
def Call.method : Call → String
  | .registerMethod method .. => method
  | .tryAcquire method _ => method

/-- The call registers `m`. -/
def Call.Registers (m : String) : Call → Prop
  | .registerMethod method .. => method = m
  | .tryAcquire .. => False

instance (m : String) : DecidablePred (Call.Registers m)
  | .registerMethod method .. => inferInstanceAs (Decidable (method = m))
  | .tryAcquire .. => inferInstanceAs (Decidable False)

/-- The call the bucket of `m` sees: `try_acquire(1)` for a `try_acquire(m)`. -/
def Call.bucketCall (m : String) : Call → Option TokenBucket.Call
  | .tryAcquire method now => if method = m then some (.tryAcquire 1 now) else none
  | .registerMethod .. => none

/-- One call's effect on the registry; a call that raises changes nothing. -/
def step (p : PerMethodLimiter) : Call → PerMethodLimiter
  | .registerMethod method capacity refillRate now =>
    p.registerMethod method capacity refillRate now
  | .tryAcquire method now =>
    match p.tryAcquire R method now with
    | .ok r => r.2
    | .error _ => p

/-- A run: the calls in the order the lock admitted them. -/
def run (p : PerMethodLimiter) (cs : List Call) : PerMethodLimiter := cs.foldl (step R) p

@[simp] theorem run_nil (p : PerMethodLimiter) : p.run R [] = p := rfl

@[simp] theorem run_cons (p : PerMethodLimiter) (c : Call) (cs : List Call) :
    p.run R (c :: cs) = (p.step R c).run R cs := rfl

theorem run_append (p : PerMethodLimiter) (cs cs' : List Call) :
    p.run R (cs ++ cs') = (p.run R cs).run R cs' := List.foldl_append _ _ _ _

theorem tryAcquire_of_some {p : PerMethodLimiter} {m : String} {b : TokenBucket}
    (hb : p.limiters m = some b) (now : ℚ) :
    p.tryAcquire R m now = (b.tryAcquire R 1 now).map
      fun r => (r.1, ⟨Function.update p.limiters m (some r.2)⟩) := by
  simp only [tryAcquire, hb]

theorem tryAcquire_of_none {p : PerMethodLimiter} {m : String} (hb : p.limiters m = none)
    (now : ℚ) : p.tryAcquire R m now = .ok (true, p) := by
  simp only [tryAcquire, hb]

theorem tryAcquire_fst (p : PerMethodLimiter) (m : String) (now : ℚ) :
    (p.tryAcquire R m now).map Prod.fst =
      ((p.limiters m).map fun b => (b.tryAcquire R 1 now).map Prod.fst).getD (.ok true) := by
  cases hb : p.limiters m with
  | none => rw [tryAcquire_of_none R hb]; rfl
  | some b =>
    rw [tryAcquire_of_some R hb, Option.map_some', Option.getD_some]
    cases b.tryAcquire R 1 now <;> rfl

/-! ### Locality -/

theorem step_limiters_of_ne (p : PerMethodLimiter) {c : Call} {m : String} (h : c.method ≠ m) :
    (p.step R c).limiters m = p.limiters m := by
  cases c with
  | registerMethod method capacity refillRate now =>
    exact Function.update_noteq (Ne.symm h) _ _
  | tryAcquire method now =>
    simp only [step]
    cases hb : p.limiters method with
    | none => rw [tryAcquire_of_none R hb]
    | some b =>
      rw [tryAcquire_of_some R hb]
      cases b.tryAcquire R 1 now with
      | error e => rfl
      | ok r => exact Function.update_noteq (Ne.symm h) _ _

theorem step_limiters_register (p : PerMethodLimiter) (m : String) (capacity : ℤ)
    (refillRate : PyFloat) (now : ℚ) :
    (p.step R (.registerMethod m capacity refillRate now)).limiters m =
      some (TokenBucket.init capacity refillRate now) :=
  Function.update_same _ _ _

theorem step_limiters_tryAcquire (p : PerMethodLimiter) (m : String) (now : ℚ) :
    (p.step R (.tryAcquire m now)).limiters m =
      (p.limiters m).map fun b => b.step R (.tryAcquire 1 now) := by
  simp only [step]
  cases hb : p.limiters m with
  | none => rw [tryAcquire_of_none R hb]; exact hb
  | some b =>
    rw [tryAcquire_of_some R hb, Option.map_some']
    simp only [TokenBucket.step]
    cases b.tryAcquire R 1 now with
    | error e => exact hb
    | ok r => exact Function.update_same _ _ _

theorem step_limiters_congr {p q : PerMethodLimiter} {m : String} (h : p.limiters m = q.limiters m)
    (c : Call) : (p.step R c).limiters m = (q.step R c).limiters m := by
  by_cases hc : c.method = m
  · subst hc
    cases c with
    | registerMethod method capacity refillRate now =>
      exact (step_limiters_register R p ..).trans (step_limiters_register R q ..).symm
    | tryAcquire method now =>
      simp only [Call.method] at h ⊢
      rw [step_limiters_tryAcquire, step_limiters_tryAcquire, h]
  · rw [step_limiters_of_ne R p hc, step_limiters_of_ne R q hc, h]

theorem run_limiters_congr {p q : PerMethodLimiter} {m : String} (h : p.limiters m = q.limiters m)
    (cs : List Call) : (p.run R cs).limiters m = (q.run R cs).limiters m := by
  induction cs generalizing p q with
  | nil => exact h
  | cons c cs ih => exact ih (step_limiters_congr R h c)

theorem run_limiters_filter (p : PerMethodLimiter) (m : String) (cs : List Call) :
    (p.run R cs).limiters m = (p.run R (cs.filter fun c => c.method = m)).limiters m := by
  induction cs generalizing p with
  | nil => rfl
  | cons c cs ih =>
    by_cases hc : c.method = m
    · rw [List.filter_cons_of_pos (by simpa using hc), run_cons, run_cons, ih]
    · rw [List.filter_cons_of_neg (by simpa using hc), run_cons, ih]
      exact run_limiters_congr R (step_limiters_of_ne R p hc) _

theorem run_limiters_of_not_registers (p : PerMethodLimiter) {m : String} {cs : List Call}
    (hcs : ∀ c ∈ cs, ¬ c.Registers m) :
    (p.run R cs).limiters m =
      (p.limiters m).map fun b => b.run R (cs.filterMap (Call.bucketCall m)) := by
  induction cs generalizing p with
  | nil => simp
  | cons c cs ih =>
    rw [run_cons, ih _ fun c' h => hcs c' (by simp [h])]
    cases c with
    | registerMethod method capacity refillRate now =>
      have hne : method ≠ m := hcs _ (List.mem_cons_self _ _)
      rw [step_limiters_of_ne R p
        (show (Call.registerMethod method capacity refillRate now).method ≠ m from hne)]
      simp [Call.bucketCall]
    | tryAcquire method now =>
      by_cases hm : method = m
      · subst hm
        rw [step_limiters_tryAcquire]
        cases p.limiters method <;> simp [Call.bucketCall]
      · rw [step_limiters_of_ne R p (show (Call.tryAcquire method now).method ≠ m from hm)]
        simp [Call.bucketCall, hm]

/-- **Each name has its own bucket.** In any rounding, after any run of `register_method` and
`try_acquire` calls on any names, at any clock readings, `try_acquire(m)` at `now` returns `True`
if `m` was never registered. Otherwise it returns, or raises, what a fresh
`TokenBucket(capacity, refill_rate)`, built at the reading of the last `register_method(m, ...)`,
returns or raises to `try_acquire(1)` at `now` after the `try_acquire(m)` calls made since, in
order. Removing every call on another name changes nothing. -/
theorem limiter_isolation (cs : List Call) (m : String) (now : ℚ) :
    ((∀ c ∈ cs, ¬ c.Registers m) →
      ((init.run R cs).tryAcquire R m now).map Prod.fst = .ok true) ∧
    (∀ pre capacity refillRate t post, cs = pre ++ .registerMethod m capacity refillRate t :: post →
      (∀ c ∈ post, ¬ c.Registers m) →
      ((init.run R cs).tryAcquire R m now).map Prod.fst =
        (((TokenBucket.init capacity refillRate t).run R
          (post.filterMap (Call.bucketCall m))).tryAcquire R 1 now).map Prod.fst) ∧
    ((init.run R cs).tryAcquire R m now).map Prod.fst =
      ((init.run R (cs.filter fun c => c.method = m)).tryAcquire R m now).map Prod.fst := by
  refine ⟨fun hcs => ?_, fun pre capacity refillRate t post hcs hpost => ?_, ?_⟩
  · rw [tryAcquire_fst, run_limiters_of_not_registers R _ hcs]
    rfl
  · rw [hcs, run_append, run_cons, tryAcquire_fst, run_limiters_of_not_registers R _ hpost,
      step_limiters_register]
    rfl
  · rw [tryAcquire_fst, tryAcquire_fst, run_limiters_filter]

theorem limiter_isolation_reregistered :
    (((init.run .binary64 [.registerMethod "eth_call" 1 (.num 1) 0, .tryAcquire "eth_call" 0,
        .tryAcquire "eth_getBalance" 0, .registerMethod "eth_call" 2 (.num 1) 1]).tryAcquire
          .binary64 "eth_call" 1).map Prod.fst =
      (((TokenBucket.init 2 (.num 1) 1).run .binary64
        (([] : List Call).filterMap (Call.bucketCall "eth_call"))).tryAcquire .binary64 1 1).map
          Prod.fst) :=
  (limiter_isolation .binary64 _ "eth_call" 1).2.1 [.registerMethod "eth_call" 1 (.num 1) 0,
    .tryAcquire "eth_call" 0, .tryAcquire "eth_getBalance" 0] 2 (.num 1) 1 [] rfl (by simp)

/-! ### The rate each name gets

A name's calls after its last registration see their own bucket and nothing else, so the bucket's
window bound holds of them whatever calls on other names are interleaved, and at whatever readings
those are made: only the readings of the name's own calls need to be in order
(`method_burst_bound`). -/

/-- A `try_acquire(m)` call at a reading in `[lo, hi]` that returns `True` counts one. -/
def grantOf (m : String) (lo hi : ℚ) (p : PerMethodLimiter) : Call → ℕ
  | .tryAcquire method now =>
    if method = m ∧ lo ≤ now ∧ now ≤ hi ∧ (p.tryAcquire R method now).map Prod.fst = .ok true
    then 1 else 0
  | .registerMethod .. => 0

/-- The `try_acquire(m)` calls of a run, made at readings in `[lo, hi]`, that return `True`. -/
def grantedWithin (m : String) (lo hi : ℚ) : PerMethodLimiter → List Call → ℕ
  | _, [] => 0
  | p, c :: cs => grantOf R m lo hi p c + grantedWithin m lo hi (p.step R c) cs

theorem bucket_grantOf_one (b : TokenBucket) (now : ℚ) :
    b.grantOf R (.tryAcquire 1 now) =
      if (b.tryAcquire R 1 now).map Prod.fst = .ok true then 1 else 0 := by
  simp only [TokenBucket.grantOf]
  rcases b.tryAcquire R 1 now with e | ⟨_ | _, b'⟩ <;> rfl

theorem grantedWithin_eq_bucket {p : PerMethodLimiter} {m : String} {b : TokenBucket}
    (hb : p.limiters m = some b) (lo hi : ℚ) {cs : List Call} (hcs : ∀ c ∈ cs, ¬ c.Registers m) :
    (grantedWithin R m lo hi p cs : ℤ) =
      TokenBucket.grantedWithin R lo hi b (cs.filterMap (Call.bucketCall m)) := by
  induction cs generalizing p b with
  | nil => rfl
  | cons c cs ih =>
    have hrest := fun c' h => hcs c' (List.mem_cons_of_mem c h)
    by_cases hm : c.method = m
    · cases c with
      | registerMethod method _ _ _ => exact absurd hm (hcs _ (List.mem_cons_self _ _))
      | tryAcquire method now =>
        obtain rfl : method = m := hm
        have hcall : Call.bucketCall method (.tryAcquire method now) = some (.tryAcquire 1 now) :=
          if_pos rfl
        have hstep : (p.step R (.tryAcquire method now)).limiters method =
            some (b.step R (.tryAcquire 1 now)) := by
          rw [step_limiters_tryAcquire, hb]; rfl
        rw [grantedWithin, List.filterMap_cons_some hcall, TokenBucket.grantedWithin, Nat.cast_add,
          ih hstep hrest]
        congr 1
        simp only [grantOf, tryAcquire_fst, hb, bucket_grantOf_one, TokenBucket.Call.now,
          Option.map_some', Option.getD_some, true_and]
        by_cases hw : lo ≤ now ∧ now ≤ hi
        · simp only [hw, true_and, if_true]
          split_ifs <;> rfl
        · rw [if_neg hw, if_neg fun h => hw ⟨h.1, h.2.1⟩, Nat.cast_zero]
    · -- a call on another name: nothing counted, the entry of `m` untouched
      have hnone : Call.bucketCall m c = none := by
        cases c <;> simp_all [Call.bucketCall, Call.method]
      have hzero : grantOf R m lo hi p c = 0 := by cases c <;> simp_all [grantOf, Call.method]
      rw [grantedWithin, hzero, Nat.cast_add, Nat.cast_zero, zero_add,
        List.filterMap_cons_none hnone]
      exact ih ((step_limiters_of_ne R p hm).trans hb) hrest

/-- **Each name keeps its bucket's rate, whatever the other names do.** In CPython's arithmetic,
after any calls, let `m` be registered with `capacity ≥ 0` and a finite `refill_rate ≥ 0` at a
reading `t`, and let any calls on any names follow, with no new registration of `m` and with the
readings of the `try_acquire(m)` calls doubles and in order. Then the `try_acquire(m)` calls at
readings in `[lo, hi]` return `True` at most
`capacity + (1 + (hi - lo) * refill_rate) * (1 + 2 ^ -51)` times. -/
theorem method_burst_bound (pre post : List Call) (m : String) (capacity : ℤ)
    (ρ t lo hi : ℚ) (hC : 0 ≤ capacity) (hρ : 0 ≤ ρ) (hlohi : lo ≤ hi) (ht : roundGrid t = t)
    (hpost : ∀ c ∈ post, ¬ c.Registers m)
    (hgrid : ∀ c ∈ post.filterMap (Call.bucketCall m), roundGrid c.now = c.now)
    (hsorted : ((post.filterMap (Call.bucketCall m)).map TokenBucket.Call.now).Sorted (· ≤ ·)) :
    (grantedWithin .binary64 m lo hi
        (init.run .binary64 (pre ++ [.registerMethod m capacity (.num ρ) t])) post : ℚ) ≤
      capacity + (1 + (hi - lo) * ρ) * (1 + 2 ^ (-51 : ℤ)) := by
  have hb : (init.run .binary64 (pre ++ [.registerMethod m capacity (.num ρ) t])).limiters m =
      some (TokenBucket.init capacity (.num ρ) t) := by
    rw [run_append, run_cons, run_nil, step_limiters_register]
  have hadm : ∀ c ∈ post.filterMap (Call.bucketCall m), c.Admissible := by
    intro c hc
    obtain ⟨c', -, hc'⟩ := List.mem_filterMap.mp hc
    cases c' with
    | registerMethod _ _ _ _ => cases hc'
    | tryAcquire method now =>
      simp only [Call.bucketCall] at hc'
      split_ifs at hc'
      cases hc'
      exact zero_le_one
  have hbound := TokenBucket.burst_bound capacity ρ t lo hi hC hρ hlohi ht _
    (fun c h => ⟨hadm c h, hgrid c h⟩) hsorted
  rw [← grantedWithin_eq_bucket .binary64 hb lo hi hpost, Int.cast_natCast] at hbound
  exact hbound

theorem method_burst_bound_interleaved :
    (0 : ℤ) ≤ 1 ∧ (0 : ℚ) ≤ 1 ∧ (0 : ℚ) ≤ 1 ∧ roundGrid 0 = 0 ∧
      (∀ c ∈ [Call.tryAcquire "eth_call" 0, .registerMethod "eth_getBalance" 1 (.num 1) 0,
        .tryAcquire "eth_call" (1/2)], ¬ c.Registers "eth_call") ∧
      (∀ c ∈ [Call.tryAcquire "eth_call" 0, .registerMethod "eth_getBalance" 1 (.num 1) 0,
        .tryAcquire "eth_call" (1/2)].filterMap (Call.bucketCall "eth_call"),
          roundGrid c.now = c.now) ∧
      (([Call.tryAcquire "eth_call" 0, .registerMethod "eth_getBalance" 1 (.num 1) 0,
        .tryAcquire "eth_call" (1/2)].filterMap (Call.bucketCall "eth_call")).map
          TokenBucket.Call.now).Sorted (· ≤ ·) ∧
      (grantedWithin .binary64 "eth_call" 0 1
        (init.run .binary64 ([] ++ [.registerMethod "eth_call" 1 (.num 1) 0]))
        [.tryAcquire "eth_call" 0, .registerMethod "eth_getBalance" 1 (.num 1) 0,
          .tryAcquire "eth_call" (1/2)] : ℚ) ≤
        (1 : ℤ) + (1 + (1 - 0) * 1) * (1 + 2 ^ (-51 : ℤ)) := by
  have hpost : ∀ c ∈ [Call.tryAcquire "eth_call" 0, .registerMethod "eth_getBalance" 1 (.num 1) 0,
      .tryAcquire "eth_call" (1/2)], ¬ c.Registers "eth_call" := by decide
  have hgrid : ∀ c ∈ [Call.tryAcquire "eth_call" 0, .registerMethod "eth_getBalance" 1 (.num 1) 0,
      .tryAcquire "eth_call" (1/2)].filterMap (Call.bucketCall "eth_call"),
        roundGrid c.now = c.now := by with_unfolding_all decide
  have hsorted : (([Call.tryAcquire "eth_call" 0, .registerMethod "eth_getBalance" 1 (.num 1) 0,
      .tryAcquire "eth_call" (1/2)].filterMap (Call.bucketCall "eth_call")).map
        TokenBucket.Call.now).Sorted (· ≤ ·) := by
    simp [Call.bucketCall, TokenBucket.Call.now]
  exact ⟨by norm_num, by norm_num, by norm_num, by simp, hpost, hgrid, hsorted,
    method_burst_bound [] _ "eth_call" 1 1 0 0 1 (by norm_num) (by norm_num) (by norm_num)
      (by simp) hpost hgrid hsorted⟩

end PerMethodLimiter

end NornRpc
