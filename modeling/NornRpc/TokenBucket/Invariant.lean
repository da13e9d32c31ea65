import NornRpc.TokenBucket.Basic

/-!
# What every reachable bucket satisfies

`Inv`: `0 ≤ tokens ≤ capacity`. The refill clamps to `capacity` and only adds; a grant takes at
most what is there and never a negative amount; a call that raises writes nothing. So every
admissible call keeps `Inv` (`step_inv`) and so does every run (`run_inv`), whatever the clock
readings, a clock running backwards included, and in any rounding.

`last_refill` is the construction reading or the reading of some call of the run
(`run_lastRefill_mem`), and with a nonnegative rate it never moves back (`run_lastRefill_mono`):
a refill needs a credit of a whole token, so a positive `elapsed`.
-/

namespace NornRpc.TokenBucket

variable (R : Rounding)

/-- The bucket's invariant. -/
structure Inv (b : TokenBucket) : Prop where
  tokens_nonneg : 0 ≤ b.tokens
  tokens_le : b.tokens ≤ b.capacity

theorem init_inv {capacity : ℤ} (hC : 0 ≤ capacity) (refillRate : PyFloat) (now : ℚ) :
    Inv (init capacity refillRate now) := ⟨hC, le_rfl⟩

theorem step_inv {b : TokenBucket} (hb : Inv b) {c : Call} (hc : c.Admissible) :
    Inv (b.step R c) := by
  cases c with
  | tryAcquire numTokens now =>
    rw [step_tryAcquire]
    split
    · have h0 := refill_tokens_nonneg R ‹_› hb.1 (hb.1.trans hb.2)
      have h1 := refill_tokens_le R ‹_› hb.2
      have hcap := refill_capacity R ‹_›
      simp only [Call.Admissible] at hc
      constructor <;> simp only [take_tokens, take_capacity, hcap] <;> split_ifs <;> omega
    · exact hb
  | timeUntilAvailableMs now => exact hb

theorem run_inv {b : TokenBucket} (hb : Inv b) {cs : List Call} (hcs : ∀ c ∈ cs, c.Admissible) :
    Inv (b.run R cs) := by
  induction cs generalizing b with
  | nil => exact hb
  | cons c cs ih =>
    exact ih (step_inv R hb (hcs c (by simp))) (fun c' h => hcs c' (by simp [h]))

theorem run_lastRefill_mono (b : TokenBucket) (cs : List Call)
    (hr : (PyFloat.num 0).le b.refillRate) : b.lastRefill ≤ (b.run R cs).lastRefill := by
  induction cs generalizing b with
  | nil => exact le_rfl
  | cons c cs ih =>
    exact (step_lastRefill_le R b c hr).trans (ih (b.step R c) (by simpa using hr))

theorem run_lastRefill_mem (b : TokenBucket) (cs : List Call) :
    (b.run R cs).lastRefill = b.lastRefill ∨ ∃ c ∈ cs, (b.run R cs).lastRefill = c.now := by
  induction cs generalizing b with
  | nil => exact .inl rfl
  | cons c cs ih =>
    rcases ih (b.step R c) with h | ⟨c', hc', h⟩
    · rcases step_lastRefill R b c with h' | h'
      · exact .inl (h.trans h')
      · exact .inr ⟨c, by simp, h.trans h'⟩
    · exact .inr ⟨c', by simp [hc'], h⟩

/-- **Reachable buckets are bounded and `last_refill` is monotone.** In any rounding, from a bucket
built with `capacity ≥ 0` and `refill_rate ≥ 0`, after any run of calls that never ask for a
negative number of tokens, at any clock readings: `0 ≤ tokens ≤ capacity`, and no later call moves
`last_refill` back. -/
theorem reachable_invariant (capacity : ℤ) (refillRate : PyFloat) (t0 : ℚ) (hC : 0 ≤ capacity)
    (hr : (PyFloat.num 0).le refillRate) (cs cs' : List Call) (hcs : ∀ c ∈ cs, c.Admissible) :
    0 ≤ ((init capacity refillRate t0).run R cs).tokens ∧
      ((init capacity refillRate t0).run R cs).tokens ≤ capacity ∧
      ((init capacity refillRate t0).run R cs).lastRefill ≤
        ((init capacity refillRate t0).run R (cs ++ cs')).lastRefill := by
  have h := run_inv R (init_inv hC refillRate t0) hcs
  refine ⟨h.1, by simpa [init] using h.2, ?_⟩
  rw [run_append]
  exact run_lastRefill_mono R _ cs' (by simpa [init] using hr)

theorem reachable_invariant_backwards_clock :
    (0 : ℤ) ≤ 2 ∧ (PyFloat.num 0).le (.num 3) ∧
      (∀ c ∈ [Call.tryAcquire 2 1, .tryAcquire 1 (-5), .timeUntilAvailableMs 0], c.Admissible) ∧
      (0 ≤ ((init 2 (.num 3) 0).run .binary64
          [.tryAcquire 2 1, .tryAcquire 1 (-5), .timeUntilAvailableMs 0]).tokens ∧
      ((init 2 (.num 3) 0).run .binary64
          [.tryAcquire 2 1, .tryAcquire 1 (-5), .timeUntilAvailableMs 0]).tokens ≤ 2 ∧
      ((init 2 (.num 3) 0).run .binary64
          [.tryAcquire 2 1, .tryAcquire 1 (-5), .timeUntilAvailableMs 0]).lastRefill ≤
        ((init 2 (.num 3) 0).run .binary64
          ([.tryAcquire 2 1, .tryAcquire 1 (-5), .timeUntilAvailableMs 0] ++
            [.tryAcquire 1 (-7)])).lastRefill) :=
  ⟨by norm_num, by decide, by decide,
    reachable_invariant .binary64 2 (.num 3) 0 (by norm_num) (by decide) _ [.tryAcquire 1 (-7)]
      (by decide)⟩

end NornRpc.TokenBucket
