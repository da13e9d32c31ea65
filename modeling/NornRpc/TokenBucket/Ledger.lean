import NornRpc.TokenBucket.Invariant

/-!
# No token lost or counted twice

The ledger of a whole run, in any rounding: `tokens = capacity - granted + refilled` after every
run (`run_tokens`, the sum of `step_tokens`), where `granted` counts the tokens handed to calls
that returned `True` and `refilled` the tokens the refills added after their clamps.

How much the refills add is a question about the float arithmetic. In exact arithmetic a refill
credits the whole tokens of the time since the previous refill, and the credits of a run telescope
to at most the whole tokens of the time from construction to the last refill. CPython rounds
twice, `now - last_refill` and then its product with the rate, and each rounding may go up by
`2 ^ -53` of the value. The readings are doubles, so their difference is rounded with that
relative error even when it is subnormal; a credit of a token or more is a normal double. So a
refill credits at most `(1 + 2 ^ -53) ^ 2` times the exact credit (`credit_le`), and the refills
of a run at most that multiple of the tokens of the time from construction to the last refill
(`refilled_le`). The exact bound does not hold: a bucket at ten tokens per second built at `0.1`
refills a token at `0.2` and ten more at `1.2`, because `1.2 - 0.2` rounds up to `1.0`
(`token_conservation_counterexample`).

As `tokens` never goes negative (`run_tokens_nonneg`), the grants of a run are at most `capacity`
plus that many tokens of the time from construction to the run's latest reading (`granted_le`).
-/

namespace NornRpc.TokenBucket

variable (R : Rounding)

/-! ### The float credit against the exact one -/

section Credit

variable {b : TokenBucket} {now ρ x : ℚ}

theorem credit_eq_num (hρ : b.refillRate = .num ρ) (h : b.credit R now = .num x) :
    ∃ e, R.float (now - b.lastRefill) = .num e ∧ R.float (e * ρ) = .num x := by
  rw [credit, hρ, PyFloat.sub_num_num] at h
  exact PyFloat.mul_eq_num R h

theorem binary64_round_eq {y z : ℚ} (h : Rounding.binary64.float y = .num z) : roundGrid y = z :=
  ((Rounding.binary64.float_eq_num).mp h).2

/-- **A refill's credit, from above**: a credit of a token or more is at most `(1 + 2 ^ -53) ^ 2`
times the exact `(now - last_refill) * rate`, when the readings are doubles. -/
theorem credit_le (hρ : b.refillRate = .num ρ) (hρ0 : 0 ≤ ρ) (hnow : OnGrid now)
    (hL : OnGrid b.lastRefill) (h : b.credit .binary64 now = .num x) (hx : 1 ≤ x) :
    x ≤ (now - b.lastRefill) * ρ * (1 + 2 ^ (-53 : ℤ)) ^ 2 := by
  obtain ⟨e, he, hp⟩ := credit_eq_num .binary64 hρ h
  have hx' := binary64_round_eq hp
  have he' := binary64_round_eq he
  -- the product is normal, so rounded with a relative error
  have hnorm := normal_of_lt_roundGrid (hx'.symm ▸ lt_of_lt_of_le (by norm_num) hx)
  have hpos : 0 < e * ρ := lt_of_lt_of_le (by positivity) hnorm
  have hp' := (abs_le.mp (abs_roundGrid_sub_le_of_normal (hnorm.trans (le_abs_self _)))).2
  rw [hx', abs_of_pos hpos] at hp'
  -- the difference is positive, on the grid, and rounded with the same relative error
  have he0 : 0 < e := pos_of_mul_pos_left hpos hρ0
  have hd : 0 < now - b.lastRefill := Rounding.binary64.pos_of_float_eq he he0
  have hd' := (abs_le.mp (abs_roundGrid_sub_le_of_onGrid (hnow.sub hL))).2
  rw [he', abs_of_pos hd] at hd'
  have hu : (2 : ℚ) ^ (-53 : ℤ) = 1 / 2 ^ 53 := by norm_num
  have hde : e ≤ (now - b.lastRefill) * (1 + 2 ^ (-53 : ℤ)) := by rw [hu]; linarith
  calc x ≤ e * ρ * (1 + 2 ^ (-53 : ℤ)) := by rw [hu]; linarith
    _ ≤ (now - b.lastRefill) * (1 + 2 ^ (-53 : ℤ)) * ρ * (1 + 2 ^ (-53 : ℤ)) :=
      mul_le_mul_of_nonneg_right (mul_le_mul_of_nonneg_right hde hρ0) (by positivity)
    _ = (now - b.lastRefill) * ρ * (1 + 2 ^ (-53 : ℤ)) ^ 2 := by ring

/-- **A refill's credit, from below**: a credit under one token means the exact credit, less
`2 ^ -53` of it, is under one token too. -/
theorem credit_lt_one (hρ : b.refillRate = .num ρ) (hρ0 : 0 ≤ ρ) (hnow : OnGrid now)
    (hL : OnGrid b.lastRefill) (h : b.credit .binary64 now = .num x) (hx : x < 1) :
    (now - b.lastRefill) * ρ * (1 - 2 ^ (-53 : ℤ)) < 1 := by
  obtain ⟨e, he, hp⟩ := credit_eq_num .binary64 hρ h
  have hx' := binary64_round_eq hp
  -- the product was below one, as rounding is monotone and keeps `1`
  have hp1 : e * ρ < 1 := by
    by_contra h1
    have := roundGrid_mono (not_lt.mp h1)
    rw [hx', show roundGrid 1 = 1 by simpa using roundGrid_two_zpow (j := 0) (by norm_num)] at this
    linarith
  rcases le_or_lt (now - b.lastRefill) 0 with hd | hd
  · have : (now - b.lastRefill) * ρ ≤ 0 := mul_nonpos_of_nonpos_of_nonneg hd hρ0
    nlinarith [show (0 : ℚ) < 1 - 2 ^ (-53 : ℤ) by norm_num]
  · have hd' := (abs_le.mp (abs_roundGrid_sub_le_of_onGrid (hnow.sub hL))).1
    rw [binary64_round_eq he, abs_of_pos hd] at hd'
    have hde : (now - b.lastRefill) * (1 - 2 ^ (-53 : ℤ)) ≤ e := by
      rw [show (2 : ℚ) ^ (-53 : ℤ) = 1 / 2 ^ 53 by norm_num]; linarith
    calc (now - b.lastRefill) * ρ * (1 - 2 ^ (-53 : ℤ))
        = (now - b.lastRefill) * (1 - 2 ^ (-53 : ℤ)) * ρ := by ring
      _ ≤ e * ρ := mul_le_mul_of_nonneg_right hde hρ0
      _ < 1 := hp1

end Credit

/-! ### The ledger -/

/-- Tokens granted over a run: `num_tokens` summed over the calls that returned `True`. -/
def granted : TokenBucket → List Call → ℤ
  | _, [] => 0
  | b, c :: cs => b.grantOf R c + granted (b.step R c) cs

/-- Tokens the refills of a run added, each after its clamp. -/
def refilled : TokenBucket → List Call → ℤ
  | _, [] => 0
  | b, c :: cs => b.refillOf R c + refilled (b.step R c) cs

/-- The largest clock reading of a run, or `t0` if larger. -/
def latestReading (t0 : ℚ) (cs : List Call) : ℚ := cs.foldr (fun c T => max c.now T) t0

theorem le_latestReading (t0 : ℚ) (cs : List Call) : t0 ≤ latestReading t0 cs := by
  induction cs with
  | nil => exact le_rfl
  | cons c cs ih => exact ih.trans (le_max_right _ _)

theorem now_le_latestReading (t0 : ℚ) {cs : List Call} {c : Call} (hc : c ∈ cs) :
    c.now ≤ latestReading t0 cs := by
  induction cs with
  | nil => simp at hc
  | cons c' cs ih =>
    rcases List.mem_cons.mp hc with rfl | hc
    · exact le_max_left _ _
    · exact (ih hc).trans (le_max_right _ _)

/-- **The ledger of a run.** -/
theorem run_tokens (b : TokenBucket) (cs : List Call) :
    (b.run R cs).tokens = b.tokens - granted R b cs + refilled R b cs := by
  induction cs generalizing b with
  | nil => simp [granted, refilled]
  | cons c cs ih => rw [run_cons, ih, step_tokens, granted, refilled]; ring

theorem refillOf_le {b : TokenBucket} {ρ : ℚ} (hρ : b.refillRate = .num ρ) (hρ0 : 0 ≤ ρ)
    (hL : OnGrid b.lastRefill) {c : Call} (hc : OnGrid c.now) :
    (b.refillOf .binary64 c : ℚ) ≤
      ((b.step .binary64 c).lastRefill - b.lastRefill) * ρ * (1 + 2 ^ (-53 : ℤ)) ^ 2 := by
  cases c with
  | timeUntilAvailableMs now => simp [refillOf, step]
  | tryAcquire numTokens now =>
    simp only [refillOf, step_tryAcquire]
    rcases refill_cases .binary64 b now with ⟨e, he⟩ | ⟨x, -, -, he⟩ | ⟨x, hx, h1, he⟩ <;>
      simp only [he, take_lastRefill]
    · simp
    · simp
    · -- the refill adds at most `⌊credit⌋`, and the credit is bounded above
      have hle := credit_le hρ hρ0 hc hL hx h1
      have hfl : ((min (b.tokens + ⌊x⌋) b.capacity - b.tokens : ℤ) : ℚ) ≤ x := by
        have : min (b.tokens + ⌊x⌋) b.capacity - b.tokens ≤ ⌊x⌋ := by omega
        exact (Int.cast_le.mpr this).trans (Int.floor_le x)
      exact hfl.trans hle

theorem step_lastRefill_onGrid {b : TokenBucket} (hL : OnGrid b.lastRefill) {c : Call}
    (hc : OnGrid c.now) : OnGrid (b.step R c).lastRefill := by
  rcases step_lastRefill R b c with h | h <;> rw [h]
  · exact hL
  · exact hc

/-- **The refills of a run** add at most `(1 + 2 ^ -53) ^ 2` times the tokens of the time from
the first `last_refill` to the last. -/
theorem refilled_le {b : TokenBucket} {ρ : ℚ} (hρ : b.refillRate = .num ρ) (hρ0 : 0 ≤ ρ)
    (hL : OnGrid b.lastRefill) {cs : List Call} (hcs : ∀ c ∈ cs, OnGrid c.now) :
    (refilled .binary64 b cs : ℚ) ≤
      ((b.run .binary64 cs).lastRefill - b.lastRefill) * ρ * (1 + 2 ^ (-53 : ℤ)) ^ 2 := by
  induction cs generalizing b with
  | nil => simp [refilled]
  | cons c cs ih =>
    have h1 := refillOf_le hρ hρ0 hL (hcs c (List.mem_cons_self _ _))
    have h2 := ih (b := b.step .binary64 c) (by simpa using hρ)
      (step_lastRefill_onGrid .binary64 hL (hcs c (List.mem_cons_self _ _)))
      fun c' h => hcs c' (List.mem_cons_of_mem _ h)
    rw [refilled, run_cons]
    push_cast
    linarith

theorem run_tokens_nonneg {b : TokenBucket} (h0 : 0 ≤ b.tokens) (hC : 0 ≤ b.capacity)
    (cs : List Call) : 0 ≤ (b.run R cs).tokens := by
  induction cs generalizing b with
  | nil => exact h0
  | cons c cs ih =>
    refine ih ?_ (by simpa using hC)
    cases c with
    | tryAcquire numTokens now =>
      rw [step_tryAcquire]
      split
      · have := refill_tokens_nonneg R ‹_› h0 hC
        simp only [take_tokens]
        split_ifs <;> omega
      · exact h0
    | timeUntilAvailableMs now => exact h0

theorem run_lastRefill_le (b : TokenBucket) (cs : List Call) :
    (b.run R cs).lastRefill ≤ latestReading b.lastRefill cs := by
  rcases run_lastRefill_mem R b cs with h | ⟨c, hc, h⟩ <;> rw [h]
  · exact le_latestReading _ _
  · exact now_le_latestReading _ hc

theorem granted_le {b : TokenBucket} {ρ : ℚ} (hρ : b.refillRate = .num ρ) (hρ0 : 0 ≤ ρ)
    (h0 : 0 ≤ b.tokens) (hC : 0 ≤ b.capacity) (hL : OnGrid b.lastRefill) {cs : List Call}
    (hcs : ∀ c ∈ cs, OnGrid c.now) :
    (granted .binary64 b cs : ℚ) ≤
      b.tokens + (latestReading b.lastRefill cs - b.lastRefill) * ρ * (1 + 2 ^ (-53 : ℤ)) ^ 2 := by
  have hrun := run_tokens .binary64 b cs
  have hnn := run_tokens_nonneg .binary64 h0 hC cs
  have href := refilled_le hρ hρ0 hL hcs
  have hlast := mul_le_mul_of_nonneg_right (mul_le_mul_of_nonneg_right
    (sub_le_sub_right (run_lastRefill_le .binary64 b cs) b.lastRefill) hρ0)
    (by positivity : (0 : ℚ) ≤ (1 + 2 ^ (-53 : ℤ)) ^ 2)
  have : (granted .binary64 b cs : ℚ) ≤ b.tokens + refilled .binary64 b cs := by
    exact_mod_cast (by omega : granted .binary64 b cs ≤ b.tokens + refilled .binary64 b cs)
  linarith

/-- **No token is lost or counted twice.** For a bucket built in CPython's arithmetic with
`capacity ≥ 0` and a finite `refill_rate ≥ 0` at a reading `t0`, after any run at any clock
readings, all doubles: `tokens` is `capacity` less the tokens granted plus the tokens refilled;
the refills added at most `(1 + 2 ^ -53) ^ 2` times the tokens of the time from `t0` to
`last_refill`; and the grants are at most `capacity` plus the whole part of that many tokens of the
time from `t0` to the run's latest reading. -/
theorem token_conservation (capacity : ℤ) (ρ t0 : ℚ) (hC : 0 ≤ capacity) (hρ : 0 ≤ ρ)
    (ht0 : roundGrid t0 = t0) (cs : List Call) (hcs : ∀ c ∈ cs, roundGrid c.now = c.now) :
    ((init capacity (.num ρ) t0).run .binary64 cs).tokens =
        capacity - granted .binary64 (init capacity (.num ρ) t0) cs +
          refilled .binary64 (init capacity (.num ρ) t0) cs ∧
      (refilled .binary64 (init capacity (.num ρ) t0) cs : ℚ) ≤
        (((init capacity (.num ρ) t0).run .binary64 cs).lastRefill - t0) * ρ *
          (1 + 2 ^ (-53 : ℤ)) ^ 2 ∧
      granted .binary64 (init capacity (.num ρ) t0) cs ≤
        capacity + ⌊(latestReading t0 cs - t0) * ρ * (1 + 2 ^ (-53 : ℤ)) ^ 2⌋ := by
  have hL : OnGrid (init capacity (.num ρ) t0).lastRefill := ht0 ▸ onGrid_roundGrid t0
  have hcs' : ∀ c ∈ cs, OnGrid c.now := fun c hc => hcs c hc ▸ onGrid_roundGrid c.now
  refine ⟨run_tokens _ _ cs, refilled_le rfl hρ hL hcs', ?_⟩
  have h : (granted .binary64 (init capacity (.num ρ) t0) cs : ℚ) ≤
      capacity + (latestReading t0 cs - t0) * ρ * (1 + 2 ^ (-53 : ℤ)) ^ 2 :=
    granted_le (b := init capacity (.num ρ) t0) rfl hρ hC hC hL hcs'
  have hfl := Int.le_floor.mpr (show ((granted .binary64 (init capacity (.num ρ) t0) cs - capacity :
    ℤ) : ℚ) ≤ (latestReading t0 cs - t0) * ρ * (1 + 2 ^ (-53 : ℤ)) ^ 2 by push_cast; linarith)
  omega

theorem token_conservation_burst :
    (0 : ℤ) ≤ 20 ∧ (0 : ℚ) ≤ 10 ∧ roundGrid 0 = 0 ∧
      (∀ c ∈ [Call.tryAcquire 5 0, .tryAcquire 30 (1/2), .tryAcquire 1 (-1)],
        roundGrid c.now = c.now) ∧
      (((init 20 (.num 10) 0).run .binary64
          [.tryAcquire 5 0, .tryAcquire 30 (1/2), .tryAcquire 1 (-1)]).tokens =
        20 - granted .binary64 (init 20 (.num 10) 0)
          [.tryAcquire 5 0, .tryAcquire 30 (1/2), .tryAcquire 1 (-1)] +
          refilled .binary64 (init 20 (.num 10) 0)
            [.tryAcquire 5 0, .tryAcquire 30 (1/2), .tryAcquire 1 (-1)] ∧
      (refilled .binary64 (init 20 (.num 10) 0)
          [.tryAcquire 5 0, .tryAcquire 30 (1/2), .tryAcquire 1 (-1)] : ℚ) ≤
        (((init 20 (.num 10) 0).run .binary64
          [.tryAcquire 5 0, .tryAcquire 30 (1/2), .tryAcquire 1 (-1)]).lastRefill - 0) * 10 *
          (1 + 2 ^ (-53 : ℤ)) ^ 2 ∧
      granted .binary64 (init 20 (.num 10) 0)
          [.tryAcquire 5 0, .tryAcquire 30 (1/2), .tryAcquire 1 (-1)] ≤
        20 + ⌊(latestReading 0 [.tryAcquire 5 0, .tryAcquire 30 (1/2), .tryAcquire 1 (-1)] - 0) *
          10 * (1 + 2 ^ (-53 : ℤ)) ^ 2⌋) := by
  have hcs : ∀ c ∈ [Call.tryAcquire 5 0, .tryAcquire 30 (1/2), .tryAcquire 1 (-1)],
      roundGrid c.now = c.now := by with_unfolding_all decide
  exact ⟨by norm_num, by norm_num, by simp, hcs,
    token_conservation 20 10 0 (by norm_num) (by norm_num) (by simp) _ hcs⟩

/-- **The exact bound fails in floats.** A bucket of twenty tokens at ten tokens per second, built
at `0.1`, drained at `0.1`, grants a call at `0.2` after refilling one token (`0.2 - 0.1` is
`0.1`) and ten at `1.2` after refilling ten more (`1.2 - 0.2` rounds to `1.0`): thirty-one tokens,
one more than `capacity + ⌊(1.2 - 0.1) * 10⌋`. -/
theorem token_conservation_counterexample :
    granted .binary64 (init 20 (.num 10) (roundGrid 0.1))
        [.tryAcquire 20 (roundGrid 0.1), .tryAcquire 1 (roundGrid 0.2),
          .tryAcquire 10 (roundGrid 1.2)] = 31 ∧
      refilled .binary64 (init 20 (.num 10) (roundGrid 0.1))
        [.tryAcquire 20 (roundGrid 0.1), .tryAcquire 1 (roundGrid 0.2),
          .tryAcquire 10 (roundGrid 1.2)] = 11 ∧
      20 + ⌊(roundGrid 1.2 - roundGrid 0.1) * 10⌋ = 30 := by
  with_unfolding_all decide

end NornRpc.TokenBucket
