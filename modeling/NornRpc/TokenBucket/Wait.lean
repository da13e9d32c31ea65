import NornRpc.TokenBucket.Invariant

/-!
# Waiting the advertised delay

`time_until_available_ms` documents itself as the time to wait before the next token is available,
which is `ceil(1000 / refill_rate)` milliseconds. The code truncates instead:
`int(1.0 / refill_rate * 1000)`. A caller that waits exactly that long is then short of a whole
token whenever `1000 / rate` is not a whole number, and is refused on retry
(`wait_then_retry_refused`: rate `3`, wait `333 ms`, `0.333 * 3 = 0.9990000000000001` tokens).

`time_until_available_ms` answers `0` while a token is left; with none left it raises
`ZeroDivisionError` at a zero rate and otherwise converts `1.0 / refill_rate * 1000`
(`timeUntilAvailableMs_of_tokens_nonpos`). And a bucket left idle for `capacity` tokens' worth of
time, as the code computes it, grants a full burst again (`idle_bucket_grants_capacity`).
-/

namespace NornRpc.TokenBucket

variable (R : Rounding)

/-- **Retrying after the advertised wait is refused.** A bucket of one token at three tokens per
second, built at `0` and drained at `0`, advertises `333 ms` at `0`; `try_acquire(1)` at the double
`0.333`, which is no earlier than `0 + 333 / 1000`, returns `False`. -/
theorem wait_then_retry_refused :
    ((init 1 (.num 3) 0).step .binary64 (.tryAcquire 1 0)).timeUntilAvailableMs .binary64 =
        .ok 333 ∧
      (0 : ℚ) + 333 / 1000 ≤ roundGrid 0.333 ∧
      (((init 1 (.num 3) 0).step .binary64 (.tryAcquire 1 0)).tryAcquire .binary64 1
        (roundGrid 0.333)).map Prod.fst = .ok false := by
  with_unfolding_all decide

theorem timeUntilAvailableMs_of_pos {b : TokenBucket} (h : 0 < b.tokens) :
    b.timeUntilAvailableMs R = .ok 0 := if_pos h

theorem timeUntilAvailableMs_of_tokens_nonpos {b : TokenBucket} (h : b.tokens ≤ 0) :
    b.timeUntilAvailableMs R =
      if b.refillRate = .num 0 then .error (.zeroDivisionError "float division by zero")
      else (PyFloat.mul R (PyFloat.trueDiv R (.num 1) b.refillRate) (R.float 1000)).toInt := by
  rw [timeUntilAvailableMs, if_neg (not_lt.mpr h), Rounding.float_one, PyFloat.div]
  split_ifs <;> rfl

theorem refill_tokens_ge {b b' : TokenBucket} {now x : ℚ} (k : ℤ) (h0 : 0 ≤ b.tokens)
    (hk : k ≤ b.capacity) (hx : b.credit R now = .num x) (hkx : (k : ℚ) ≤ x)
    (h : b.refill R now = .ok b') : k ≤ b'.tokens := by
  rcases lt_or_le x 1 with h1 | h1
  · rw [refill_of_credit_lt_one R hx h1] at h
    cases h
    have : k < 1 := by exact_mod_cast hkx.trans_lt h1
    omega
  · rw [refill_of_one_le_credit R hx h1] at h
    cases h
    exact le_min (by have := Int.le_floor.mpr hkx; omega) hk

/-- **An idle bucket grants a full burst.** In any rounding and every reachable state of a bucket
built with `capacity ≥ 0`: `try_acquire(capacity)` at a reading where `elapsed * refill_rate`, as
the code computes it, is a finite number of at least `capacity` tokens returns `True`; the refill
clamps back to a full bucket. -/
theorem idle_bucket_grants_capacity (capacity : ℤ) (refillRate : PyFloat) (t0 : ℚ)
    (hC : 0 ≤ capacity) (cs : List Call) (hcs : ∀ c ∈ cs, c.Admissible) (now : ℚ)
    (hidle : ∃ x, ((init capacity refillRate t0).run R cs).credit R now = .num x ∧
      (capacity : ℚ) ≤ x) :
    (((init capacity refillRate t0).run R cs).tryAcquire R capacity now).map Prod.fst =
      .ok true := by
  obtain ⟨x, hx, hkx⟩ := hidle
  have hb := run_inv R (init_inv hC refillRate t0) hcs
  obtain ⟨b', he⟩ : ∃ b', ((init capacity refillRate t0).run R cs).refill R now = .ok b' := by
    rcases lt_or_le x 1 with h1 | h1
    · exact ⟨_, refill_of_credit_lt_one R hx h1⟩
    · exact ⟨_, refill_of_one_le_credit R hx h1⟩
  have hk := refill_tokens_ge R capacity hb.1 (by simp [init]) hx hkx he
  simpa [tryAcquire, he, Except.map] using hk

theorem idle_bucket_grants_capacity_after_drain :
    (0 : ℤ) ≤ 2 ∧ (∀ c ∈ [Call.tryAcquire 2 0], c.Admissible) ∧
      (∃ x, ((init 2 (.num 1) 0).run .binary64 [.tryAcquire 2 0]).credit .binary64 2 = .num x ∧
        ((2 : ℤ) : ℚ) ≤ x) ∧
      (((init 2 (.num 1) 0).run .binary64 [.tryAcquire 2 0]).tryAcquire .binary64 2 2).map
        Prod.fst = .ok true := by
  have hrun : (init 2 (.num 1) 0).run .binary64 [.tryAcquire 2 0] = ⟨2, 0, .num 1, 0⟩ := by
    with_unfolding_all rfl
  have hidle : ∃ x, ((init 2 (.num 1) 0).run .binary64 [.tryAcquire 2 0]).credit .binary64 2 =
      .num x ∧ ((2 : ℤ) : ℚ) ≤ x := ⟨2, by rw [hrun]; with_unfolding_all decide, by norm_num⟩
  exact ⟨by norm_num, by decide, hidle,
    idle_bucket_grants_capacity .binary64 2 (.num 1) 0 (by norm_num) _ (by decide) 2 hidle⟩

end NornRpc.TokenBucket
