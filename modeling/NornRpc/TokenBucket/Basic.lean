import NornRpc.Float.PyFloat

/-!
# The token bucket

`TokenBucket` of `rate_limiting_utilities.py`: its four fields, the refill that starts
`try_acquire`, `try_acquire` itself and `time_until_available_ms`, in the float arithmetic of a
`Rounding` (CPython's is `Rounding.binary64`). The lock is not modelled as such: every method body
runs under it, so a call is one atomic `step`, and the calls of any number of threads form one
list, in the order the lock admitted them (`run`). The clock is an argument: `now` is what
`time.time()` returns inside the call, a finite float, and nothing constrains successive readings.

`try_acquire` can raise: `int(elapsed * refill_rate)` raises `OverflowError` on an infinite
product and `ValueError` on a NaN. It raises before it writes anything, so a call that raises
leaves the bucket as it was. `time_until_available_ms` raises `ZeroDivisionError` for a zero rate
and `OverflowError` when `1.0 / refill_rate * 1000` is infinite.

What one call can do is said once here, and later modules reason from it: `refill_cases` (the
refill raises, adds nothing, or adds `⌊elapsed * rate⌋` clamped and moves `last_refill` to `now`),
`lastRefill_lt_of_credit` (with a nonnegative rate, only a later reading refills), `step_tokens`
(the ledger of one call) and the frame lemmas (`capacity` and `refill_rate` never change).
-/

namespace NornRpc

/-- A token bucket's fields (`capacity`, `tokens`, `refill_rate`, `last_refill`). -/
structure TokenBucket where
  capacity : ℤ
  tokens : ℤ
  refillRate : PyFloat
  lastRefill : ℚ

namespace TokenBucket

variable (R : Rounding)

/-- `TokenBucket(capacity, refill_rate)`, built at clock reading `now`: it starts full. -/
def init (capacity : ℤ) (refillRate : PyFloat) (now : ℚ) : TokenBucket :=
  ⟨capacity, capacity, refillRate, now⟩

/-- `elapsed * self.refill_rate` with `elapsed = now - self.last_refill`, as `try_acquire` computes
it at `now`. -/
def credit (b : TokenBucket) (now : ℚ) : PyFloat :=
  PyFloat.mul R (PyFloat.sub R (.num now) (.num b.lastRefill)) b.refillRate

/-- The refill at the top of `try_acquire`: `int()` of the credit, clamped to `capacity`;
`last_refill` moves to `now` only when at least one token is added. -/
def refill (b : TokenBucket) (now : ℚ) : Except PyError TokenBucket := do
  let tokensToAdd ← (b.credit R now).toInt
  if 0 < tokensToAdd then
    pure { b with tokens := min (b.tokens + tokensToAdd) b.capacity, lastRefill := now }
  else pure b

/-- The rest of `try_acquire`, on the refilled bucket. -/
def take (b : TokenBucket) (numTokens : ℤ) : Bool × TokenBucket :=
  if numTokens ≤ b.tokens then (true, { b with tokens := b.tokens - numTokens }) else (false, b)

/-- `try_acquire(num_tokens)` at clock reading `now`. -/
def tryAcquire (b : TokenBucket) (numTokens : ℤ) (now : ℚ) : Except PyError (Bool × TokenBucket) :=
  (b.refill R now).map (·.take numTokens)

/-- `time_until_available_ms()`: `0` while a token is left, else
`int(1.0 / refill_rate * 1000)`. It changes nothing. -/
def timeUntilAvailableMs (b : TokenBucket) : Except PyError ℤ :=
  if 0 < b.tokens then pure 0
  else do
    let timeToNextToken ← PyFloat.div R (R.float 1) b.refillRate
    (PyFloat.mul R timeToNextToken (R.float 1000)).toInt

/-! ### Calls and runs -/

/-- One call on a bucket, made at clock reading `now`. `time_until_available_ms` reads no clock,
but in a run it too happens at some reading. -/
inductive Call where
  | tryAcquire (numTokens : ℤ) (now : ℚ)
  | timeUntilAvailableMs (now : ℚ)
  deriving Repr

/-- The clock reading a call is made at. -/
def Call.now : Call → ℚ
  | .tryAcquire _ now => now
  | .timeUntilAvailableMs now => now

/-- A call as callers make it: `try_acquire` never asks for a negative number of tokens. -/
def Call.Admissible : Call → Prop
  | .tryAcquire numTokens _ => 0 ≤ numTokens
  | .timeUntilAvailableMs _ => True

instance : DecidablePred Call.Admissible
  | .tryAcquire numTokens _ => inferInstanceAs (Decidable (0 ≤ numTokens))
  | .timeUntilAvailableMs _ => inferInstanceAs (Decidable True)

/-- One call's effect on the bucket; a call that raises changes nothing. -/
def step (b : TokenBucket) : Call → TokenBucket
  | .tryAcquire numTokens now =>
    match b.tryAcquire R numTokens now with
    | .ok r => r.2
    | .error _ => b
  | .timeUntilAvailableMs _ => b

/-- A run: the calls in the order the lock admitted them. -/
def run (b : TokenBucket) (cs : List Call) : TokenBucket := cs.foldl (step R) b

/-- The tokens a call was granted: `num_tokens` when `try_acquire` returned `True`. -/
def grantOf (b : TokenBucket) : Call → ℤ
  | .tryAcquire numTokens now =>
    match b.tryAcquire R numTokens now with
    | .ok (true, _) => numTokens
    | _ => 0
  | .timeUntilAvailableMs _ => 0

/-- The tokens a call's refill added, after the clamp. -/
def refillOf (b : TokenBucket) : Call → ℤ
  | .tryAcquire _ now =>
    match b.refill R now with
    | .ok b' => b'.tokens - b.tokens
    | .error _ => 0
  | .timeUntilAvailableMs _ => 0

@[simp] theorem run_nil (b : TokenBucket) : b.run R [] = b := rfl

@[simp] theorem run_cons (b : TokenBucket) (c : Call) (cs : List Call) :
    b.run R (c :: cs) = (b.step R c).run R cs := rfl

theorem run_append (b : TokenBucket) (cs cs' : List Call) :
    b.run R (cs ++ cs') = (b.run R cs).run R cs' := List.foldl_append _ _ _ _

/-! ### The refill -/

theorem refill_of_credit_lt_one {b : TokenBucket} {now x : ℚ} (h : b.credit R now = .num x)
    (hx : x < 1) : b.refill R now = .ok b := by
  simp only [refill, h, PyFloat.toInt_num, bind, Except.bind]
  rw [if_neg (mt pyInt_pos.mp (not_le.mpr hx))]
  rfl

theorem refill_of_one_le_credit {b : TokenBucket} {now x : ℚ} (h : b.credit R now = .num x)
    (hx : 1 ≤ x) : b.refill R now =
      .ok { b with tokens := min (b.tokens + ⌊x⌋) b.capacity, lastRefill := now } := by
  have hpos : 0 < pyInt x := pyInt_pos.mpr hx
  simp only [refill, h, PyFloat.toInt_num, bind, Except.bind]
  rw [if_pos hpos, pyInt_eq_floor_of_pos hpos]
  rfl

/-- **What a refill can do**: raise, add nothing when the credit is below one token, or add
`⌊credit⌋` clamped to `capacity` and move `last_refill` to `now`. -/
theorem refill_cases (b : TokenBucket) (now : ℚ) :
    (∃ e, b.refill R now = .error e) ∨
    (∃ x, b.credit R now = .num x ∧ x < 1 ∧ b.refill R now = .ok b) ∨
    (∃ x, b.credit R now = .num x ∧ 1 ≤ x ∧
      b.refill R now =
        .ok { b with tokens := min (b.tokens + ⌊x⌋) b.capacity, lastRefill := now }) := by
  cases h : b.credit R now with
  | num x =>
    rcases lt_or_le x 1 with hx | hx
    · exact .inr (.inl ⟨x, rfl, hx, refill_of_credit_lt_one R h hx⟩)
    · exact .inr (.inr ⟨x, rfl, hx, refill_of_one_le_credit R h hx⟩)
  | inf neg => exact .inl ⟨_, by simp only [refill, h]; rfl⟩
  | nan => exact .inl ⟨_, by simp only [refill, h]; rfl⟩

theorem refill_ok_cases {b b' : TokenBucket} {now : ℚ} (h : b.refill R now = .ok b') :
    b' = b ∨ ∃ x, b.credit R now = .num x ∧ 1 ≤ x ∧
      b' = { b with tokens := min (b.tokens + ⌊x⌋) b.capacity, lastRefill := now } := by
  rcases refill_cases R b now with ⟨e, he⟩ | ⟨x, -, -, he⟩ | ⟨x, hx, h1, he⟩ <;> rw [he] at h
  · cases h
  · exact .inl (Except.ok.inj h).symm
  · exact .inr ⟨x, hx, h1, (Except.ok.inj h).symm⟩

@[simp] theorem refill_capacity {b b' : TokenBucket} {now : ℚ} (h : b.refill R now = .ok b') :
    b'.capacity = b.capacity := by
  rcases refill_ok_cases R h with rfl | ⟨x, -, -, rfl⟩ <;> rfl

@[simp] theorem refill_refillRate {b b' : TokenBucket} {now : ℚ} (h : b.refill R now = .ok b') :
    b'.refillRate = b.refillRate := by
  rcases refill_ok_cases R h with rfl | ⟨x, -, -, rfl⟩ <;> rfl

theorem refill_tokens_nonneg {b b' : TokenBucket} {now : ℚ} (h : b.refill R now = .ok b')
    (h0 : 0 ≤ b.tokens) (hC : 0 ≤ b.capacity) : 0 ≤ b'.tokens := by
  rcases refill_ok_cases R h with rfl | ⟨x, -, h1, rfl⟩
  · exact h0
  · have : 0 ≤ ⌊x⌋ := Int.floor_nonneg.mpr (by linarith)
    exact le_min (by omega) hC

theorem refill_tokens_le {b b' : TokenBucket} {now : ℚ} (h : b.refill R now = .ok b')
    (hle : b.tokens ≤ b.capacity) : b'.tokens ≤ b.capacity := by
  rcases refill_ok_cases R h with rfl | ⟨x, -, -, rfl⟩
  · exact hle
  · exact min_le_right _ _

/-- **Only a later reading refills a bucket with a nonnegative rate**: a positive credit needs a
positive `elapsed`, an infinite rate making every credit infinite or NaN. -/
theorem lastRefill_lt_of_credit {b : TokenBucket} {now x : ℚ}
    (hr : (PyFloat.num 0).le b.refillRate) (h : b.credit R now = .num x) (hx : 0 < x) :
    b.lastRefill < now := by
  unfold credit at h
  rcases hrate : b.refillRate with ρ | neg | _ <;> rw [hrate] at hr h <;> simp [PyFloat.le] at hr
  · -- a finite rate: both the difference and the product were finite and positive
    rw [PyFloat.sub_num_num] at h
    unfold Rounding.float at h
    split_ifs at h with hsub
    · simp [PyFloat.mul] at h
      split_ifs at h
    · rw [PyFloat.mul_num_num] at h
      have he := R.pos_of_float_eq h hx
      have hd : 0 < R.round (now - b.lastRefill) := pos_of_mul_pos_left he hr
      have := R.pos_of_float_eq (x := now - b.lastRefill) (by simp [Rounding.float, hsub]) hd
      linarith
  · -- `+inf`: the product is never finite
    subst hr
    rw [PyFloat.sub_num_num] at h
    unfold Rounding.float at h
    split_ifs at h <;> simp [PyFloat.mul] at h
    split_ifs at h

theorem refill_lastRefill_le {b b' : TokenBucket} {now : ℚ} (h : b.refill R now = .ok b')
    (hr : (PyFloat.num 0).le b.refillRate) : b.lastRefill ≤ b'.lastRefill := by
  rcases refill_ok_cases R h with rfl | ⟨x, hx, h1, rfl⟩
  · exact le_rfl
  · exact (lastRefill_lt_of_credit R hr hx (by linarith)).le

/-! ### One call -/

@[simp] theorem take_fst (b : TokenBucket) (numTokens : ℤ) :
    (b.take numTokens).1 = decide (numTokens ≤ b.tokens) := by
  unfold take; split_ifs with h <;> simp [h]

@[simp] theorem take_tokens (b : TokenBucket) (numTokens : ℤ) :
    (b.take numTokens).2.tokens = b.tokens - if numTokens ≤ b.tokens then numTokens else 0 := by
  unfold take; split_ifs <;> simp

@[simp] theorem take_capacity (b : TokenBucket) (numTokens : ℤ) :
    (b.take numTokens).2.capacity = b.capacity := by
  unfold take; split_ifs <;> rfl

@[simp] theorem take_refillRate (b : TokenBucket) (numTokens : ℤ) :
    (b.take numTokens).2.refillRate = b.refillRate := by
  unfold take; split_ifs <;> rfl

@[simp] theorem take_lastRefill (b : TokenBucket) (numTokens : ℤ) :
    (b.take numTokens).2.lastRefill = b.lastRefill := by
  unfold take; split_ifs <;> rfl

theorem step_tryAcquire (b : TokenBucket) (numTokens : ℤ) (now : ℚ) :
    b.step R (.tryAcquire numTokens now) =
      match b.refill R now with
      | .ok b' => (b'.take numTokens).2
      | .error _ => b := by
  simp only [step, tryAcquire]
  cases b.refill R now <;> rfl

theorem grantOf_tryAcquire (b : TokenBucket) (numTokens : ℤ) (now : ℚ) :
    b.grantOf R (.tryAcquire numTokens now) =
      match b.refill R now with
      | .ok b' => if numTokens ≤ b'.tokens then numTokens else 0
      | .error _ => 0 := by
  simp only [grantOf, tryAcquire]
  cases b.refill R now with
  | error e => rfl
  | ok b' => by_cases h : numTokens ≤ b'.tokens <;> simp [Except.map, take, h]

@[simp] theorem step_capacity (b : TokenBucket) (c : Call) :
    (b.step R c).capacity = b.capacity := by
  cases c with
  | tryAcquire numTokens now =>
    rw [step_tryAcquire]
    split
    · rw [take_capacity, refill_capacity R ‹_›]
    · rfl
  | timeUntilAvailableMs now => rfl

@[simp] theorem step_refillRate (b : TokenBucket) (c : Call) :
    (b.step R c).refillRate = b.refillRate := by
  cases c with
  | tryAcquire numTokens now =>
    rw [step_tryAcquire]
    split
    · rw [take_refillRate, refill_refillRate R ‹_›]
    · rfl
  | timeUntilAvailableMs now => rfl

theorem step_lastRefill (b : TokenBucket) (c : Call) :
    (b.step R c).lastRefill = b.lastRefill ∨ (b.step R c).lastRefill = c.now := by
  cases c with
  | tryAcquire numTokens now =>
    rw [step_tryAcquire]
    split
    · rcases refill_ok_cases R ‹_› with rfl | ⟨x, -, -, rfl⟩
      · exact .inl (take_lastRefill _ _)
      · exact .inr (take_lastRefill _ _)
    · exact .inl rfl
  | timeUntilAvailableMs now => exact .inl rfl

theorem step_lastRefill_le (b : TokenBucket) (c : Call) (hr : (PyFloat.num 0).le b.refillRate) :
    b.lastRefill ≤ (b.step R c).lastRefill := by
  cases c with
  | tryAcquire numTokens now =>
    rw [step_tryAcquire]
    split
    · rw [take_lastRefill]; exact refill_lastRefill_le R ‹_› hr
    · exact le_rfl
  | timeUntilAvailableMs now => exact le_rfl

/-- **The ledger of one call**: the tokens after it are those before, plus what its refill added,
less what it was granted. -/
theorem step_tokens (b : TokenBucket) (c : Call) :
    (b.step R c).tokens = b.tokens + b.refillOf R c - b.grantOf R c := by
  cases c with
  | tryAcquire numTokens now =>
    rw [step_tryAcquire, grantOf_tryAcquire, refillOf]
    split <;> simp_all
  | timeUntilAvailableMs now => simp [step, grantOf, refillOf]

@[simp] theorem run_capacity (b : TokenBucket) (cs : List Call) :
    (b.run R cs).capacity = b.capacity := by
  induction cs generalizing b <;> simp [*]

@[simp] theorem run_refillRate (b : TokenBucket) (cs : List Call) :
    (b.run R cs).refillRate = b.refillRate := by
  induction cs generalizing b <;> simp [*]

end TokenBucket

end NornRpc
