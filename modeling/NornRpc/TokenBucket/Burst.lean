import NornRpc.TokenBucket.Ledger
import Mathlib.Data.List.Sort

/-!
# Grants within a window of clock time

The classical token-bucket burst bound, `capacity + (b - a) * rate` grants in any window `[a, b]`,
does not hold of this bucket (`burst_bound_counterexample`). `last_refill` only moves when a whole
token is added, by design (a refill that adds nothing keeps `last_refill`), so time spent with a
full bucket is not forfeited: a bucket full at `a`, drained at once, is credited at its next refill
for time before `a`. That credit is less than one token, up to rounding, since a call in the window
that does not refill finds less than one token's worth of time since `last_refill`.

`burst_bound`: over runs at nondecreasing readings, all doubles, the calls at readings in `[a, b]`
are granted at most `capacity + (1 + (b - a) * rate) * (1 + 2 ^ -51)` tokens; the factor covers
the two roundings of each credit, and without it the bound `capacity + 1 + (b - a) * rate` fails
by a hair. The calls in the window form one stretch of the run (`grantedWithin_eq_granted`). Let
`L` be `last_refill` when it starts. If `(a - L) * rate`, less its rounding, is a token or more,
the first `try_acquire` of the window that does not raise refills at a reading `≥ a`, and the ledger
from there gives `capacity + (b - a) * rate` up to rounding (`granted_le_of_stale`); otherwise the
ledger from the start of the window gives at most `capacity` plus the tokens of
`(b - L) * rate < (b - a) * rate + 1`, up to rounding.

Before the first refill a bucket is a plain counter: unit requests take one token each while any is
left (`run_unit_acquires`), so of a burst of `try_acquire(1)` calls exactly the first `capacity`
succeed (`burst_admits_capacity`).
-/

namespace NornRpc.TokenBucket

variable (R : Rounding)

/-- Tokens granted over a run to the calls made at readings in `[lo, hi]`. -/
def grantedWithin (lo hi : ℚ) : TokenBucket → List Call → ℤ
  | _, [] => 0
  | b, c :: cs =>
    (if lo ≤ c.now ∧ c.now ≤ hi then b.grantOf R c else 0) + grantedWithin lo hi (b.step R c) cs

/-- **The textbook burst bound fails**: a bucket of one token at one token per second, built at
`0`, grants a call at `0.5` without refilling and one at `1` after refilling a token whose time
began before `0.5`. -/
theorem burst_bound_counterexample :
    ([(Call.tryAcquire 1 (1/2)).now, (Call.tryAcquire 1 1).now]).Sorted (· ≤ ·) ∧
      (1 : ℚ) + (1 - 1/2) * 1 <
        grantedWithin .binary64 (1/2) 1 (init 1 (.num 1) 0)
          [.tryAcquire 1 (1/2), .tryAcquire 1 1] := by
  refine ⟨by simp [Call.now]; norm_num, ?_⟩
  with_unfolding_all decide

theorem latestReading_le {t0 T : ℚ} (h0 : t0 ≤ T) {cs : List Call} (hcs : ∀ c ∈ cs, c.now ≤ T) :
    latestReading t0 cs ≤ T := by
  induction cs with
  | nil => exact h0
  | cons c cs ih => exact max_le (hcs c (by simp)) (ih fun c' h => hcs c' (by simp [h]))

/-! ### The window is one stretch of the run -/

theorem grantedWithin_of_lt {lo hi : ℚ} (b : TokenBucket) {cs : List Call}
    (hcs : ∀ c ∈ cs, hi < c.now) : grantedWithin R lo hi b cs = 0 := by
  induction cs generalizing b with
  | nil => rfl
  | cons c cs ih =>
    have hc := hcs c (by simp)
    rw [grantedWithin, if_neg (by intro h; linarith [h.2]), ih _ fun c' h => hcs c' (by simp [h])]
    rfl

theorem grantedWithin_eq_granted {lo hi : ℚ} (b : TokenBucket) {cs : List Call}
    (hsorted : (cs.map Call.now).Sorted (· ≤ ·)) (hlo : ∀ c ∈ cs, lo ≤ c.now) :
    grantedWithin R lo hi b cs = granted R b (cs.takeWhile fun c => c.now ≤ hi) := by
  induction cs generalizing b with
  | nil => rfl
  | cons c cs ih =>
    rw [List.map_cons, List.sorted_cons] at hsorted
    by_cases hc : c.now ≤ hi
    · rw [grantedWithin, if_pos ⟨hlo c (by simp), hc⟩,
        List.takeWhile_cons_of_pos (by simpa using hc),
        granted, ih _ hsorted.2 fun c' h => hlo c' (by simp [h])]
    · rw [grantedWithin, if_neg (by tauto), List.takeWhile_cons_of_neg (by simpa using hc),
        grantedWithin_of_lt _ _ fun c' h => ?_]
      · rfl
      · exact lt_of_lt_of_le (not_le.mp hc) (hsorted.1 _ (List.mem_map_of_mem _ h))

/-! ### The bound on one stretch -/

section Stretch

variable {lo hi ρ : ℚ} {b : TokenBucket}

theorem refill_of_stale {now : ℚ} (hρ : b.refillRate = .num ρ) (hρ0 : 0 ≤ ρ) (hnow : OnGrid now)
    (hL : OnGrid b.lastRefill) (hstale : 1 ≤ (now - b.lastRefill) * ρ * (1 - 2 ^ (-53 : ℤ))) :
    (∃ e, b.refill .binary64 now = .error e) ∨
      ∃ x : ℚ, 1 ≤ x ∧ b.refill .binary64 now =
        .ok { b with tokens := min (b.tokens + ⌊x⌋) b.capacity, lastRefill := now } := by
  rcases refill_cases .binary64 b now with h | ⟨x, hx, h1, -⟩ | ⟨x, -, h1, h⟩
  · exact .inl h
  · exact absurd (credit_lt_one hρ hρ0 hnow hL hx h1) (not_lt.mpr hstale)
  · exact .inr ⟨x, h1, h⟩

theorem granted_le_of_stale (hlohi : lo ≤ hi) (hb : Inv b) (hρ : b.refillRate = .num ρ)
    (hρ0 : 0 ≤ ρ) (hL : OnGrid b.lastRefill)
    (hstale : 1 ≤ (lo - b.lastRefill) * ρ * (1 - 2 ^ (-53 : ℤ))) {cs : List Call}
    (hcs : ∀ c ∈ cs, OnGrid c.now ∧ lo ≤ c.now ∧ c.now ≤ hi) :
    (granted .binary64 b cs : ℚ) ≤ b.capacity + (hi - lo) * ρ * (1 + 2 ^ (-53 : ℤ)) ^ 2 := by
  have hC : (0 : ℚ) ≤ b.capacity := by exact_mod_cast hb.1.trans hb.2
  have hu : (0 : ℚ) ≤ (1 + 2 ^ (-53 : ℤ)) ^ 2 := by positivity
  induction cs with
  | nil =>
    have := mul_nonneg (mul_nonneg (sub_nonneg.mpr hlohi) hρ0) hu
    simp only [granted, Int.cast_zero]
    linarith
  | cons c cs ih =>
    have ih := ih fun c' h => hcs c' (List.mem_cons_of_mem _ h)
    cases c with
    | timeUntilAvailableMs now => simpa [granted, grantOf, step] using ih
    | tryAcquire numTokens now =>
      obtain ⟨hg, hlo, hhi⟩ : OnGrid now ∧ lo ≤ now ∧ now ≤ hi := hcs _ (List.mem_cons_self _ _)
      have hstale' : 1 ≤ (now - b.lastRefill) * ρ * (1 - 2 ^ (-53 : ℤ)) :=
        hstale.trans (mul_le_mul_of_nonneg_right (mul_le_mul_of_nonneg_right (by linarith) hρ0)
          (by norm_num))
      rcases refill_of_stale hρ hρ0 hg hL hstale' with ⟨e, he⟩ | ⟨x, h1, he⟩
      · -- the call raises: nothing granted, nothing changed
        simpa [granted, grantOf_tryAcquire, step_tryAcquire, he] using ih
      · -- the call refills at `now`, and the ledger restarts there
        set c := Call.tryAcquire numTokens now
        have hstep := step_tokens .binary64 b c
        have hrefill : b.tokens + b.refillOf .binary64 c ≤ b.capacity := by
          simp only [c, refillOf, he]; omega
        have hlast : (b.step .binary64 c).lastRefill = now := by
          simp [c, step_tryAcquire, he]
        have hle := granted_le (b := b.step .binary64 c) (by simpa using hρ) hρ0
          (run_tokens_nonneg .binary64 hb.1 (hb.1.trans hb.2) [c]) (by simpa using hb.1.trans hb.2)
          (hlast ▸ hg) fun c' h => (hcs c' (List.mem_cons_of_mem _ h)).1
        rw [hlast] at hle
        have hT := latestReading_le hhi fun c' h => (hcs c' (List.mem_cons_of_mem _ h)).2.2
        have hmono := mul_le_mul_of_nonneg_right (mul_le_mul_of_nonneg_right
          (show latestReading now cs - now ≤ hi - lo by linarith) hρ0) hu
        have hg' : (b.grantOf .binary64 c : ℚ) + (b.step .binary64 c).tokens ≤ b.capacity := by
          exact_mod_cast (by omega : b.grantOf .binary64 c + (b.step .binary64 c).tokens ≤
            b.capacity)
        rw [granted, Int.cast_add]
        linarith

theorem burst_slack {d p : ℚ} (hd : 0 ≤ d) (hp : p * (1 - 2 ^ (-53 : ℤ)) < 1) :
    (d + p) * (1 + 2 ^ (-53 : ℤ)) ^ 2 ≤ (1 + d) * (1 + 2 ^ (-51 : ℤ)) := by
  norm_num at hp ⊢
  linarith

theorem granted_le_window (hlohi : lo ≤ hi) (hb : Inv b) (hρ : b.refillRate = .num ρ)
    (hρ0 : 0 ≤ ρ) (hL : OnGrid b.lastRefill) {cs : List Call}
    (hcs : ∀ c ∈ cs, OnGrid c.now ∧ lo ≤ c.now ∧ c.now ≤ hi) :
    (granted .binary64 b cs : ℚ) ≤ b.capacity + (1 + (hi - lo) * ρ) * (1 + 2 ^ (-51 : ℤ)) := by
  have hd : 0 ≤ (hi - lo) * ρ := mul_nonneg (sub_nonneg.mpr hlohi) hρ0
  have hslack : ∀ p : ℚ, p * (1 - 2 ^ (-53 : ℤ)) < 1 →
      ((hi - lo) * ρ + p) * (1 + 2 ^ (-53 : ℤ)) ^ 2 ≤ (1 + (hi - lo) * ρ) * (1 + 2 ^ (-51 : ℤ)) :=
    fun p hp => burst_slack hd hp
  by_cases hstale : 1 ≤ (lo - b.lastRefill) * ρ * (1 - 2 ^ (-53 : ℤ))
  · have := granted_le_of_stale hlohi hb hρ hρ0 hL hstale hcs
    linarith [hslack 0 (by norm_num)]
  · -- less than a token's worth of time before `lo`: the ledger from the start of the stretch
    have hle := granted_le hρ hρ0 hb.1 (hb.1.trans hb.2) hL fun c h => (hcs c h).1
    have htok : (b.tokens : ℚ) ≤ b.capacity := by exact_mod_cast hb.2
    have hu : (0 : ℚ) ≤ (1 + 2 ^ (-53 : ℤ)) ^ 2 := by positivity
    rcases le_total b.lastRefill hi with h | h
    · have hT := latestReading_le h fun c h => (hcs c h).2.2
      have := mul_le_mul_of_nonneg_right (mul_le_mul_of_nonneg_right
        (sub_le_sub_right hT b.lastRefill) hρ0) hu
      have := hslack _ (not_le.mp hstale)
      linarith
    · have hT := latestReading_le le_rfl fun c hc => (hcs c hc).2.2.trans h
      have := mul_nonpos_of_nonpos_of_nonneg (mul_nonpos_of_nonpos_of_nonneg
        (sub_nonpos.mpr hT) hρ0) hu
      linarith [hslack 0 (by norm_num), mul_nonneg hd hu]

end Stretch

theorem grantedWithin_le {lo hi ρ : ℚ} (hlohi : lo ≤ hi) {b : TokenBucket} (hb : Inv b)
    (hρ : b.refillRate = .num ρ) (hρ0 : 0 ≤ ρ) (hL : OnGrid b.lastRefill) {cs : List Call}
    (hcs : ∀ c ∈ cs, c.Admissible ∧ OnGrid c.now) (hsorted : (cs.map Call.now).Sorted (· ≤ ·)) :
    (grantedWithin .binary64 lo hi b cs : ℚ) ≤
      b.capacity + (1 + (hi - lo) * ρ) * (1 + 2 ^ (-51 : ℤ)) := by
  induction cs generalizing b with
  | nil =>
    have : (0 : ℚ) ≤ b.capacity := by exact_mod_cast hb.1.trans hb.2
    have := mul_nonneg (sub_nonneg.mpr hlohi) hρ0
    simp only [grantedWithin, Int.cast_zero]
    positivity
  | cons c cs ih =>
    have hs := hsorted
    rw [List.map_cons, List.sorted_cons] at hs
    obtain ⟨hadm, hg⟩ := hcs c (List.mem_cons_self _ _)
    by_cases hc : c.now < lo
    · -- before the window: nothing counted, the invariant carried along
      rw [grantedWithin, if_neg fun h => (not_le.mpr hc) h.1, Int.cast_add, Int.cast_zero, zero_add]
      simpa using ih (step_inv .binary64 hb hadm) (by simpa using hρ)
        (step_lastRefill_onGrid .binary64 hL hg) (fun c' h => hcs c' (List.mem_cons_of_mem _ h))
        hs.2
    · -- the window starts here and is the stretch up to the last reading `≤ hi`
      have hlo : ∀ c' ∈ c :: cs, lo ≤ c'.now := fun c' h => (List.mem_cons.mp h).elim
        (fun h => h ▸ not_lt.mp hc) fun h => (not_lt.mp hc).trans (hs.1 _ (List.mem_map_of_mem _ h))
      rw [grantedWithin_eq_granted _ b hsorted hlo]
      exact granted_le_window hlohi hb hρ hρ0 hL fun c' h =>
        ⟨(hcs c' (List.takeWhile_subset _ h)).2, hlo c' (List.takeWhile_subset _ h),
          by simpa using List.mem_takeWhile_imp h⟩

/-- **The burst bound of this bucket.** For a bucket built in CPython's arithmetic with
`capacity ≥ 0` and a finite `refill_rate ≥ 0`, and any run of calls that never ask for a negative
number of tokens, at nondecreasing clock readings, all doubles: the calls at readings in `[lo, hi]`
are granted at most `capacity + (1 + (hi - lo) * refill_rate) * (1 + 2 ^ -51)` tokens. -/
theorem burst_bound (capacity : ℤ) (ρ t0 lo hi : ℚ) (hC : 0 ≤ capacity) (hρ : 0 ≤ ρ)
    (hlohi : lo ≤ hi) (ht0 : roundGrid t0 = t0) (cs : List Call)
    (hcs : ∀ c ∈ cs, c.Admissible ∧ roundGrid c.now = c.now)
    (hsorted : (cs.map Call.now).Sorted (· ≤ ·)) :
    (grantedWithin .binary64 lo hi (init capacity (.num ρ) t0) cs : ℚ) ≤
      capacity + (1 + (hi - lo) * ρ) * (1 + 2 ^ (-51 : ℤ)) :=
  grantedWithin_le hlohi (init_inv hC _ t0) rfl hρ (ht0 ▸ onGrid_roundGrid t0)
    (fun c h => ⟨(hcs c h).1, (hcs c h).2 ▸ onGrid_roundGrid c.now⟩) hsorted

theorem burst_bound_half_second :
    (0 : ℤ) ≤ 1 ∧ (0 : ℚ) ≤ 1 ∧ (1/2 : ℚ) ≤ 1 ∧ roundGrid 0 = 0 ∧
      (∀ c ∈ [Call.tryAcquire 1 (1/2), .tryAcquire 1 1],
        c.Admissible ∧ roundGrid c.now = c.now) ∧
      ([Call.tryAcquire 1 (1/2), .tryAcquire 1 1].map Call.now).Sorted (· ≤ ·) ∧
      (grantedWithin .binary64 (1/2) 1 (init 1 (.num 1) 0)
          [.tryAcquire 1 (1/2), .tryAcquire 1 1] : ℚ) ≤
        (1 : ℤ) + (1 + (1 - 1/2) * 1) * (1 + 2 ^ (-51 : ℤ)) := by
  have hcs : ∀ c ∈ [Call.tryAcquire 1 (1/2), .tryAcquire 1 1],
      c.Admissible ∧ roundGrid c.now = c.now := by with_unfolding_all decide
  have hsorted : ([Call.tryAcquire 1 (1/2), .tryAcquire 1 1].map Call.now).Sorted (· ≤ ·) := by
    simp [Call.now]; norm_num
  exact ⟨by norm_num, by norm_num, by norm_num, by simp, hcs, hsorted,
    burst_bound 1 1 0 (1/2) 1 (by norm_num) (by norm_num) (by norm_num) (by simp) _ hcs hsorted⟩

/-! ### A burst before the first refill -/

theorem run_unit_acquires (b : TokenBucket) (h0 : 0 ≤ b.tokens) (ts : List ℚ)
    (hts : ∀ t ∈ ts, ∃ x, b.credit R t = .num x ∧ x < 1) :
    b.run R (ts.map (Call.tryAcquire 1)) =
        { b with tokens := b.tokens - min (ts.length : ℤ) b.tokens } ∧
      granted R b (ts.map (Call.tryAcquire 1)) = min (ts.length : ℤ) b.tokens := by
  induction ts generalizing b with
  | nil => simp [granted, min_eq_left h0]
  | cons t ts ih =>
    obtain ⟨x, hx, h1⟩ := hts t (List.mem_cons_self _ _)
    have hr := refill_of_credit_lt_one R hx h1
    -- the call takes a token if one is left
    have hstep : b.step R (.tryAcquire 1 t) = { b with tokens := b.tokens - min 1 b.tokens } ∧
        b.grantOf R (.tryAcquire 1 t) = min 1 b.tokens := by
      rw [step_tryAcquire, grantOf_tryAcquire, hr]
      by_cases h1 : 1 ≤ b.tokens
      · simp [take, h1]
      · simp [take, h1, show min 1 b.tokens = 0 by omega]
    obtain ⟨hrun, hgr⟩ := ih { b with tokens := b.tokens - min 1 b.tokens } (by simp only; omega)
      fun t' h => hts t' (List.mem_cons_of_mem _ h)
    rw [List.map_cons, run_cons, granted, hstep.1, hrun, hstep.2, hgr]
    simp only [List.length_cons, Nat.cast_succ]
    exact ⟨by congr 1; omega, by omega⟩

/-- **A burst admits exactly `capacity` unit requests.** In any rounding, for a bucket built at
`t0` with `capacity ≥ 0`, and `try_acquire(1)` calls at readings where `elapsed * refill_rate`, as
the code computes it, is a finite number below one, so that no refill happens: the `i`-th call
returns `True` exactly when `i < capacity`, none raises, and the burst is granted `min(k, capacity)`
tokens for `k` calls, none lost and none counted twice. -/
theorem burst_admits_capacity (capacity : ℤ) (refillRate : PyFloat) (t0 : ℚ) (hC : 0 ≤ capacity)
    (ts : List ℚ)
    (hts : ∀ t ∈ ts, ∃ x, (init capacity refillRate t0).credit R t = .num x ∧ x < 1) :
    (∀ i (hi : i < ts.length),
      (((init capacity refillRate t0).run R ((ts.take i).map (Call.tryAcquire 1))).tryAcquire R 1
        ts[i]).map Prod.fst = .ok (decide ((i : ℤ) < capacity))) ∧
    granted R (init capacity refillRate t0) (ts.map (Call.tryAcquire 1)) =
      min (ts.length : ℤ) capacity := by
  refine ⟨fun i hi => ?_, (run_unit_acquires R (init capacity refillRate t0) hC ts hts).2⟩
  have hrun := (run_unit_acquires R (init capacity refillRate t0) hC (ts.take i)
    fun t h => hts t (List.mem_of_mem_take h)).1
  have hlen : ((ts.take i).length : ℤ) = i := by simp [List.length_take, min_eq_left hi.le]
  obtain ⟨x, hx, h1⟩ := hts _ (List.getElem_mem hi)
  have hr := refill_of_credit_lt_one R (b := { init capacity refillRate t0 with
    tokens := (init capacity refillRate t0).tokens -
      min ((ts.take i).length : ℤ) (init capacity refillRate t0).tokens }) hx h1
  rw [hrun, tryAcquire, hr]
  simp only [Except.map, take_fst, init, hlen]
  exact congrArg _ (decide_eq_decide.mpr ⟨fun h => by omega, fun h => by omega⟩)

theorem burst_admits_capacity_two :
    (0 : ℤ) ≤ 2 ∧
      (∀ t ∈ [(0 : ℚ), 0, 0], ∃ x, (init 2 (.num 10) 0).credit .binary64 t = .num x ∧ x < 1) ∧
      ((∀ i (hi : i < [(0 : ℚ), 0, 0].length),
        (((init 2 (.num 10) 0).run .binary64 (([(0 : ℚ), 0, 0].take i).map (Call.tryAcquire 1))
          ).tryAcquire .binary64 1 [(0 : ℚ), 0, 0][i]).map Prod.fst =
            .ok (decide ((i : ℤ) < 2))) ∧
      granted .binary64 (init 2 (.num 10) 0) ([(0 : ℚ), 0, 0].map (Call.tryAcquire 1)) =
        min ([(0 : ℚ), 0, 0].length : ℤ) 2) := by
  have hts : ∀ t ∈ [(0 : ℚ), 0, 0], ∃ x, (init 2 (.num 10) 0).credit .binary64 t = .num x ∧
      x < 1 := by
    intro t ht
    obtain rfl : t = 0 := by simpa using ht
    exact ⟨0, by with_unfolding_all decide, by norm_num⟩
  exact ⟨by norm_num, hts, burst_admits_capacity .binary64 2 (.num 10) 0 (by norm_num) _ hts⟩

end NornRpc.TokenBucket
