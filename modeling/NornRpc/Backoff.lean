import NornRpc.Float.PyFloat
import Mathlib.Data.List.Basic

/-!
# Exponential backoff

`ExponentialBackoff` of `rate_limiting_utilities.py`: an attempt counter, moved by `next_attempt`
and `reset`, and two reads. `should_retry` is `attempt < 10`; `get_delay_ms` is
`min(int(initial_delay_ms * (2.0 ** attempt)), max_delay_ms)`, in floats: the power raises
`OverflowError` once it passes the largest double, the `int` operand of `*` is converted to a
float (and raises past it), the product is rounded and may be infinite, and `int()` of an
infinity raises.

Over any run of `next_attempt` and `reset` calls the counter is the number `k` of `next_attempt`
calls since the last `reset` (`run_attempt`). In every rounding, `get_delay_ms` is the spec lemma
`getDelayMs_eq`; in CPython's, a power of two and a double times it are exact, so the delay is
`min(float(initial_delay_ms) * 2^k, max_delay_ms)` up to the three overflows, and
`float(initial_delay_ms)` is the initial delay itself up to `2^53` (`backoff_closed_form`,
`getDelayMs_of_small`). With a nonnegative initial delay the delays never shrink along a retry
sequence and never pass `max_delay_ms` (`delay_mono_bounded`).
-/

namespace NornRpc

/-- A backoff's fields (`initial_delay_ms`, `max_delay_ms`, `multiplier`, `attempt`). -/
structure ExponentialBackoff where
  initialDelayMs : ℤ
  maxDelayMs : ℤ
  multiplier : PyFloat
  attempt : ℕ
  deriving DecidableEq, Repr

namespace ExponentialBackoff

variable (R : Rounding)

/-- `ExponentialBackoff(initial_delay_ms, max_delay_ms)`, with the multiplier `2.0`. -/
def init (initialDelayMs maxDelayMs : ℤ) : ExponentialBackoff :=
  ⟨initialDelayMs, maxDelayMs, .num 2, 0⟩

/-- `get_delay_ms()`: the power first, then the conversion of the `int` operand of `*`, then
`int()` of the product. -/
def getDelayMs (b : ExponentialBackoff) : Except PyError ℤ := do
  let scale ← PyFloat.powNat R b.multiplier b.attempt
  let initial ← PyFloat.ofInt R b.initialDelayMs
  let delay ← (PyFloat.mul R initial scale).toInt
  pure (min delay b.maxDelayMs)

/-- `next_attempt()`. -/
def nextAttempt (b : ExponentialBackoff) : ExponentialBackoff := { b with attempt := b.attempt + 1 }

/-- `reset()`. -/
def reset (b : ExponentialBackoff) : ExponentialBackoff := { b with attempt := 0 }

/-- `should_retry()`. -/
def shouldRetry (b : ExponentialBackoff) : Bool := b.attempt < 10

/-- The two calls that change a backoff. -/
inductive Op where
  | nextAttempt
  | reset
  deriving DecidableEq, Repr

/-- One call's effect. -/
def step (b : ExponentialBackoff) : Op → ExponentialBackoff
  | .nextAttempt => b.nextAttempt
  | .reset => b.reset

/-- A run of calls. -/
def run (b : ExponentialBackoff) (ops : List Op) : ExponentialBackoff := ops.foldl step b

/-- The number of `next_attempt` calls after the last `reset` of a run. -/
def sinceReset (ops : List Op) : ℕ := (ops.reverse.takeWhile (· == .nextAttempt)).length

/-! ## The delay of one state -/

/-- **`get_delay_ms` in any rounding**: the power's overflow, the conversion's, the product's, or
the capped product of the rounded operands. -/
theorem getDelayMs_eq (b : ExponentialBackoff) (hb : b.multiplier = .num 2) :
    b.getDelayMs R =
      if R.overflows (R.round (2 ^ b.attempt)) then
        .error (.overflowError "(34, 'Numerical result out of range')")
      else if R.overflows (R.round b.initialDelayMs) then
        .error (.overflowError "int too large to convert to float")
      else if R.overflows (R.round (R.round b.initialDelayMs * R.round (2 ^ b.attempt))) then
        .error (.overflowError "cannot convert float infinity to integer")
      else
        .ok (min (pyInt (R.round (R.round b.initialDelayMs * R.round (2 ^ b.attempt))))
          b.maxDelayMs) := by
  simp only [getDelayMs, hb, PyFloat.powNat_num, PyFloat.ofInt_eq]
  split_ifs <;> simp only [bind, Except.bind, pure, Except.pure, PyFloat.mul_num_num,
    PyFloat.toInt_float, Bool.false_eq_true, ↓reduceIte, *]

theorem binary64_round : Rounding.binary64.round = roundGrid := rfl

theorem binary64_overflows (y : ℚ) : Rounding.binary64.overflows y = decide (2 ^ 1024 ≤ |y|) := by
  show decide (pow2 1024 ≤ |y|) = _
  rw [pow2_eq, zpow_ofNat]

theorem roundGrid_two_pow (k : ℕ) : roundGrid (2 ^ k) = 2 ^ k := by
  simpa using roundGrid_two_zpow (j := k) (by omega)

theorem getDelayMs_binary64 (b : ExponentialBackoff) (hb : b.multiplier = .num 2) :
    b.getDelayMs .binary64 =
      if 1024 ≤ b.attempt then .error (.overflowError "(34, 'Numerical result out of range')")
      else if 2 ^ 1024 ≤ |roundGrid b.initialDelayMs| then
        .error (.overflowError "int too large to convert to float")
      else if 2 ^ 1024 ≤ |roundGrid b.initialDelayMs * 2 ^ b.attempt| then
        .error (.overflowError "cannot convert float infinity to integer")
      else .ok (min (pyInt (roundGrid b.initialDelayMs * 2 ^ b.attempt)) b.maxDelayMs) := by
  have hpow : (2 : ℚ) ^ 1024 ≤ |2 ^ b.attempt| ↔ 1024 ≤ b.attempt := by
    rw [abs_of_pos (by positivity)]
    exact pow_le_pow_iff_right₀ (by norm_num)
  simp only [getDelayMs_eq _ b hb, binary64_overflows, binary64_round, roundGrid_two_pow,
    roundGrid_mul_two_pow, decide_eq_true_eq, hpow]

theorem getDelayMs_of_small (b : ExponentialBackoff) (hb : b.multiplier = .num 2)
    (hinit : |b.initialDelayMs| ≤ 2 ^ 53) (hk : b.attempt ≤ 970) :
    b.getDelayMs .binary64 = .ok (min (b.initialDelayMs * 2 ^ b.attempt) b.maxDelayMs) := by
  have hq : |(b.initialDelayMs : ℚ)| ≤ 2 ^ 53 := by exact_mod_cast hinit
  have hprod : |(b.initialDelayMs : ℚ) * 2 ^ b.attempt| < 2 ^ 1024 :=
    calc |(b.initialDelayMs : ℚ) * 2 ^ b.attempt|
        = |(b.initialDelayMs : ℚ)| * 2 ^ b.attempt := by
          rw [abs_mul, abs_of_pos (pow_pos (by norm_num : (0 : ℚ) < 2) _)]
      _ ≤ 2 ^ 53 * 2 ^ 970 :=
          mul_le_mul hq (pow_le_pow_right₀ (by norm_num) hk) (by positivity) (by positivity)
      _ < 2 ^ 1024 := by norm_num
  rw [getDelayMs_binary64 b hb, Rounding.roundGrid_intCast hinit, if_neg (by omega),
    if_neg (by linarith [hq]), if_neg hprod.not_le]
  exact_mod_cast congrArg (fun d => Except.ok (min d b.maxDelayMs)) (pyInt_intCast _)

/-! ## Runs -/

@[simp] theorem run_append (b : ExponentialBackoff) (ops ops' : List Op) :
    b.run (ops ++ ops') = (b.run ops).run ops' := List.foldl_append _ _ _ _

@[simp] theorem sinceReset_append_nextAttempt (ops : List Op) :
    sinceReset (ops ++ [.nextAttempt]) = sinceReset ops + 1 := by
  simp [sinceReset]

@[simp] theorem sinceReset_append_reset (ops : List Op) : sinceReset (ops ++ [.reset]) = 0 := by
  simp [sinceReset]

/-- **The counter over a run**: the calls since the last `reset`, or since construction. -/
theorem run_attempt (b : ExponentialBackoff) (ops : List Op) :
    (b.run ops).attempt = if .reset ∈ ops then sinceReset ops else b.attempt + sinceReset ops := by
  induction ops using List.reverseRecOn with
  | nil => simp [sinceReset, run]
  | append_singleton ops op ih =>
    rw [run_append]
    cases op with
    | nextAttempt =>
      show (b.run ops).attempt + 1 = _
      by_cases h : Op.reset ∈ ops <;> simp [ih, h, Nat.add_assoc]
    | reset => simp [run, step, reset]

@[simp] theorem run_frame (b : ExponentialBackoff) (ops : List Op) :
    (b.run ops).initialDelayMs = b.initialDelayMs ∧ (b.run ops).maxDelayMs = b.maxDelayMs ∧
      (b.run ops).multiplier = b.multiplier := by
  induction ops generalizing b with
  | nil => exact ⟨rfl, rfl, rfl⟩
  | cons op ops ih => cases op <;> exact ih _

theorem init_run_attempt (initialDelayMs maxDelayMs : ℤ) (ops : List Op) :
    ((init initialDelayMs maxDelayMs).run ops).attempt = sinceReset ops := by
  rw [run_attempt]
  split_ifs <;> simp [init]

/-- **The delay and the retry budget over any run.** After any run of `next_attempt` and `reset`
calls on `ExponentialBackoff(initial_delay_ms, max_delay_ms)`, with `k` the number of
`next_attempt` calls since the last `reset` (or since construction): `should_retry()` returns
whether `k < 10`, and `get_delay_ms()` raises `OverflowError` from `2.0 ** k` for `k ≥ 1024`, from
the conversion of `initial_delay_ms` when it rounds to `2^1024` or more, and from `int()` when the
product does, and otherwise returns `min(float(initial_delay_ms) * 2^k, max_delay_ms)`, where
`float(initial_delay_ms)` is `initial_delay_ms` rounded to a double. -/
theorem backoff_closed_form (initialDelayMs maxDelayMs : ℤ) (ops : List Op) :
    ((init initialDelayMs maxDelayMs).run ops).shouldRetry = decide (sinceReset ops < 10) ∧
      ((init initialDelayMs maxDelayMs).run ops).getDelayMs .binary64 =
        if 1024 ≤ sinceReset ops then
          .error (.overflowError "(34, 'Numerical result out of range')")
        else if 2 ^ 1024 ≤ |roundGrid initialDelayMs| then
          .error (.overflowError "int too large to convert to float")
        else if 2 ^ 1024 ≤ |roundGrid initialDelayMs * 2 ^ sinceReset ops| then
          .error (.overflowError "cannot convert float infinity to integer")
        else .ok (min (pyInt (roundGrid initialDelayMs * 2 ^ sinceReset ops)) maxDelayMs) := by
  obtain ⟨h1, h2, h3⟩ := run_frame (init initialDelayMs maxDelayMs) ops
  refine ⟨by simp [shouldRetry, init_run_attempt], ?_⟩
  rw [getDelayMs_binary64 _ (h3.trans rfl), init_run_attempt, h1, h2]
  rfl

/- `initial_delay_ms = 2^53 + 1` is converted to `2^53`: the delay after one `next_attempt` is
`2^54`, not `2^54 + 2`. -/
example :
    ((init (2 ^ 53 + 1) (2 ^ 60)).run [.nextAttempt]).getDelayMs .binary64 = .ok (2 ^ 54) := by
  have hround : roundGrid 9007199254740993 = 9007199254740992 := by
    have hrhe : roundHalfEven (9007199254740993 / 2) = 4503599627370496 := by
      with_unfolding_all decide
    rw [roundGrid_eq, show ulpExp 9007199254740993 = 1 by with_unfolding_all decide]
    norm_num [hrhe]
  rw [getDelayMs_binary64 _ rfl]
  norm_num [hround, init, run, step, nextAttempt, pyInt]

/-! ## Monotone and capped -/

theorem getDelayMs_eq_ok {b : ExponentialBackoff} (hb : b.multiplier = .num 2) {d : ℤ}
    (h : b.getDelayMs R = .ok d) :
    d = min (pyInt (R.round (R.round b.initialDelayMs * R.round (2 ^ b.attempt))))
      b.maxDelayMs := by
  rw [getDelayMs_eq R b hb] at h
  split_ifs at h
  exact (Except.ok.inj h).symm

theorem init_run_getDelayMs_eq_ok {initialDelayMs maxDelayMs : ℤ} {ops : List Op} {d : ℤ}
    (h : ((init initialDelayMs maxDelayMs).run ops).getDelayMs R = .ok d) :
    d = min (pyInt (R.round (R.round initialDelayMs * R.round (2 ^ sinceReset ops))))
      maxDelayMs := by
  obtain ⟨h1, h2, h3⟩ := run_frame (init initialDelayMs maxDelayMs) ops
  rw [getDelayMs_eq_ok R (h3.trans rfl) h, h1, h2, init_run_attempt]
  rfl

/-- **Delays never shrink along a retry sequence and never pass the cap**, in every rounding: with
`initial_delay_ms ≥ 0`, after any run, a delay `get_delay_ms()` returns is at most
`max_delay_ms`, and one more `next_attempt()` gives a delay, if one is returned, no smaller. -/
theorem delay_mono_bounded (initialDelayMs maxDelayMs : ℤ) (h0 : 0 ≤ initialDelayMs)
    (ops : List Op) :
    (∀ d, ((init initialDelayMs maxDelayMs).run ops).getDelayMs R = .ok d → d ≤ maxDelayMs) ∧
      ∀ d d', ((init initialDelayMs maxDelayMs).run ops).getDelayMs R = .ok d →
        ((init initialDelayMs maxDelayMs).run (ops ++ [.nextAttempt])).getDelayMs R = .ok d' →
          d ≤ d' := by
  refine ⟨fun d h => (init_run_getDelayMs_eq_ok R h).trans_le (min_le_right _ _),
    fun d d' h h' => ?_⟩
  rw [init_run_getDelayMs_eq_ok R h, init_run_getDelayMs_eq_ok R h', sinceReset_append_nextAttempt]
  have hinit := R.round_nonneg (by exact_mod_cast h0 : (0 : ℚ) ≤ initialDelayMs)
  have hpow : R.round (2 ^ sinceReset ops) ≤ R.round (2 ^ (sinceReset ops + 1)) :=
    R.round_mono (pow_le_pow_right₀ (by norm_num) (Nat.le_succ _))
  exact min_le_min (pyInt_mono (R.round_nonneg (mul_nonneg hinit (R.round_nonneg (by positivity))))
    (R.round_mono (mul_le_mul_of_nonneg_left hpow hinit))) le_rfl

theorem delay_mono_bounded_spec_sequence :
    (0 : ℤ) ≤ 100 ∧
      (∀ d, ((init 100 30000).run (List.replicate 9 .nextAttempt)).getDelayMs .binary64 = .ok d →
        d ≤ 30000) ∧
      ∀ d d', ((init 100 30000).run (List.replicate 9 .nextAttempt)).getDelayMs .binary64 = .ok d →
        ((init 100 30000).run (List.replicate 9 .nextAttempt ++ [.nextAttempt])).getDelayMs
          .binary64 = .ok d' → d ≤ d' :=
  ⟨by norm_num, delay_mono_bounded .binary64 100 30000 (by norm_num) _⟩

end ExponentialBackoff

end NornRpc
