import NornRpc.TokenBucket.Wait
import Mathlib.Algebra.Order.Ring.Unbundled.Basic
import Mathlib.Data.List.Basic

/-!
# The adaptive rate limiter

`AdaptiveRateLimiter` of `rate_limiting_utilities.py`: a rate, its bounds and its two factors, all
floats. `record_success` multiplies the rate by `increase_factor` (`1.1`) and clamps it with
`min(..., max_rate)`; `record_rate_limit_error` multiplies it by `decrease_factor` (`0.5`) and
clamps it with `max(..., min_rate)`; `get_token_bucket` builds a fresh bucket of capacity
`max(int(rate), 1)` refilling at the rate. Everything is computed in the float arithmetic of a
`Rounding`; with `Rounding.exact` the factors are `11/10` and `1/2`.

For float bounds `0 ≤ min_rate ≤ max_rate`, the rate stays a float in `[min_rate, max_rate]`
(`record_inv`): a success gives `min(rate * 1.1, max_rate)` and an error
`max(rate * 0.5, min_rate)`, the products rounded (`record_success_rate`, `record_error_rate`; a
product that overflows is above `max_rate`). So the bucket the limiter mints has a positive rate and a capacity between `1`
and `max(⌊max_rate⌋, 1)` (`rate_clamped`). Both updates are monotone and, on
`[min_rate, max_rate]`, the error update lies below the identity and the success update above it
(`record_mono`), so more successes or a higher start never give a lower rate (`rate_monotone`).
Clamping at each step agrees with clamping once at the end, because a rounded `max_rate * 1.1` is
at least `max_rate` and a rounded `min_rate * 0.5` at most `min_rate` (`rate_closed_form`); the
unclamped rate is the rounded product of the rate and `1.1`, taken `k` times, which in CPython is
not `rate * 1.1 ** k` (`rate_closed_form_counterexample`). Whatever calls the minted bucket then
serves, the wait it advertises is defined and at most the wait of a bucket at `min_rate`
(`minted_bucket_wait_bounded`).
-/

namespace NornRpc

/-- An adaptive limiter's fields (`current_rate`, `min_rate`, `max_rate`, `decrease_factor`,
`increase_factor`). -/
structure AdaptiveRateLimiter where
  currentRate : PyFloat
  minRate : PyFloat
  maxRate : PyFloat
  decreaseFactor : PyFloat
  increaseFactor : PyFloat
  deriving DecidableEq, Repr

namespace AdaptiveRateLimiter

variable (R : Rounding)

/-- `AdaptiveRateLimiter(initial_rate, min_rate, max_rate)`, with the literals `0.5` and `1.1`. -/
def init (initialRate minRate maxRate : PyFloat) : AdaptiveRateLimiter :=
  ⟨initialRate, minRate, maxRate, R.float (1/2), R.float (11/10)⟩

/-- `record_success()`. -/
def recordSuccess (a : AdaptiveRateLimiter) : AdaptiveRateLimiter :=
  { a with currentRate := (PyFloat.mul R a.currentRate a.increaseFactor).pyMin a.maxRate }

/-- `record_rate_limit_error()`. -/
def recordRateLimitError (a : AdaptiveRateLimiter) : AdaptiveRateLimiter :=
  { a with currentRate := (PyFloat.mul R a.currentRate a.decreaseFactor).pyMax a.minRate }

/-- `get_current_rate()`. -/
def getCurrentRate (a : AdaptiveRateLimiter) : PyFloat := a.currentRate

/-- `get_token_bucket()`, at the clock reading the new bucket is built at: `int(rate)` raises on an
infinite or NaN rate. -/
def getTokenBucket (a : AdaptiveRateLimiter) (now : ℚ) : Except PyError TokenBucket := do
  let rate := a.getCurrentRate
  let capacity := max (← rate.toInt) 1
  pure (TokenBucket.init capacity rate now)

/-- What the caller reports after a request. -/
inductive Feedback where
  | success
  | rateLimitError
  deriving DecidableEq, Repr

/-- One report's effect. -/
def record (a : AdaptiveRateLimiter) : Feedback → AdaptiveRateLimiter
  | .success => a.recordSuccess R
  | .rateLimitError => a.recordRateLimitError R

/-- A sequence of reports, in the order the lock admitted them. -/
def run (a : AdaptiveRateLimiter) (fs : List Feedback) : AdaptiveRateLimiter :=
  fs.foldl (record R) a

@[simp] theorem run_nil (a : AdaptiveRateLimiter) : a.run R [] = a := rfl

@[simp] theorem run_cons (a : AdaptiveRateLimiter) (f : Feedback) (fs : List Feedback) :
    a.run R (f :: fs) = (a.record R f).run R fs := rfl

theorem run_append (a : AdaptiveRateLimiter) (fs fs' : List Feedback) :
    a.run R (fs ++ fs') = (a.run R fs).run R fs' := List.foldl_append _ _ _ _

@[simp] theorem record_minRate (a : AdaptiveRateLimiter) (f : Feedback) :
    (a.record R f).minRate = a.minRate := by cases f <;> rfl

@[simp] theorem record_maxRate (a : AdaptiveRateLimiter) (f : Feedback) :
    (a.record R f).maxRate = a.maxRate := by cases f <;> rfl

@[simp] theorem record_decreaseFactor (a : AdaptiveRateLimiter) (f : Feedback) :
    (a.record R f).decreaseFactor = a.decreaseFactor := by cases f <;> rfl

@[simp] theorem record_increaseFactor (a : AdaptiveRateLimiter) (f : Feedback) :
    (a.record R f).increaseFactor = a.increaseFactor := by cases f <;> rfl

theorem getTokenBucket_num {a : AdaptiveRateLimiter} {c : ℚ} (hc : a.currentRate = .num c)
    (hc0 : 0 ≤ c) (now : ℚ) :
    a.getTokenBucket now = .ok (TokenBucket.init (max ⌊c⌋ 1) (.num c) now) := by
  simp only [getTokenBucket, getCurrentRate, hc, PyFloat.toInt_num, pyInt_of_nonneg hc0]
  rfl

/-! ### The factors -/

theorem float_half :
    R.float (1/2) = .num (R.round (1/2)) ∧ 0 ≤ R.round (1/2) ∧ R.round (1/2) ≤ 1 := by
  obtain ⟨y, hy, h0, h1⟩ := R.float_mem (by norm_num : (0 : ℚ) ≤ 1/2) (by norm_num : (1/2 : ℚ) ≤ 1)
    R.float_zero R.float_one
  rw [(R.float_eq_num.mp hy).2]
  exact ⟨hy, h0, h1⟩

theorem float_increase : R.float (11/10) = .num (R.round (11/10)) ∧ 1 ≤ R.round (11/10) := by
  obtain ⟨y, hy, h1, -⟩ := R.float_mem (by norm_num : (1 : ℚ) ≤ 11/10)
    (by norm_num : (11/10 : ℚ) ≤ 2) R.float_one
    (by simpa using R.float_intCast (n := 2) (by norm_num))
  rw [(R.float_eq_num.mp hy).2]
  exact ⟨hy, h1⟩

/-! ### The rate stays clamped -/

/-- What every reachable limiter satisfies, for bounds `lo` and `hi`: the bounds and factors as the
constructor set them, and the rate a float between the bounds. -/
structure Inv (lo hi : ℚ) (a : AdaptiveRateLimiter) : Prop where
  minRate_eq : a.minRate = .num lo
  maxRate_eq : a.maxRate = .num hi
  decrease : a.decreaseFactor = R.float (1/2)
  increase : a.increaseFactor = R.float (11/10)
  rate : ∃ c, a.currentRate = .num c ∧ R.round c = c ∧ lo ≤ c ∧ c ≤ hi

section Bounds

variable {R} {lo hi : ℚ} {a : AdaptiveRateLimiter} {c : ℚ}

theorem init_inv {r : ℚ} (hrR : R.float r = .num r) (hlo : lo ≤ r) (hhi : r ≤ hi) :
    Inv R lo hi (init R (.num r) (.num lo) (.num hi)) :=
  ⟨rfl, rfl, rfl, rfl, r, rfl, (R.float_eq_num.mp hrR).2, hlo, hhi⟩

/-- **What a success does to the rate**: `min(rate * 1.1, max_rate)`, the product rounded. -/
theorem record_success_rate (ha : Inv R lo hi a) (hhiR : R.float hi = .num hi)
    (hc : a.currentRate = .num c) (hc0 : 0 ≤ c) :
    (a.record R .success).currentRate = .num (min (R.round (c * R.round (11/10))) hi) := by
  have hf := float_increase R
  simp only [record, recordSuccess, hc, ha.increase, hf.1, PyFloat.mul_num_num, ha.maxRate_eq]
  exact R.pyMin_float (mul_nonneg hc0 (by linarith [hf.2])) hhiR

/-- **What an error does to the rate**: `max(rate * 0.5, min_rate)`, the product rounded. -/
theorem record_error_rate (ha : Inv R lo hi a) (hhiR : R.float hi = .num hi)
    (hc : a.currentRate = .num c) (hc0 : 0 ≤ c) (hchi : c ≤ hi) :
    (a.record R .rateLimitError).currentRate = .num (max (R.round (c * R.round (1/2))) lo) := by
  have hd := float_half R
  have hprod : c * R.round (1/2) ≤ hi := (mul_le_of_le_one_right hc0 hd.2.2).trans hchi
  obtain ⟨y, hy, -⟩ := R.float_mem (mul_nonneg hc0 hd.2.1) hprod R.float_zero hhiR
  simp only [record, recordRateLimitError, hc, ha.decrease, hd.1, PyFloat.mul_num_num,
    ha.minRate_eq]
  exact R.pyMax_float (R.float_eq_num.mp hy).1

theorem record_inv (ha : Inv R lo hi a) (hlo : 0 ≤ lo) (hloR : R.float lo = .num lo)
    (hhiR : R.float hi = .num hi) (f : Feedback) : Inv R lo hi (a.record R f) := by
  obtain ⟨c, hc, hcR, hlc, hch⟩ := ha.rate
  have hloR' := (R.float_eq_num.mp hloR).2
  have hhiR' := (R.float_eq_num.mp hhiR).2
  refine ⟨by simpa using ha.minRate_eq, by simpa using ha.maxRate_eq, by simpa using ha.decrease,
    by simpa using ha.increase, ?_⟩
  cases f with
  | success =>
    -- the product is at least the rate, so at least `lo`
    have hf := (float_increase R).2
    have hup : lo ≤ R.round (c * R.round (11/10)) :=
      hloR' ▸ R.round_mono (hlc.trans (le_mul_of_one_le_right (hlo.trans hlc) hf))
    refine ⟨_, record_success_rate ha hhiR hc (hlo.trans hlc), ?_, le_min hup (hlc.trans hch),
      min_le_right _ _⟩
    rcases min_choice (R.round (c * R.round (11/10))) hi with h | h <;> rw [h]
    · exact R.round_idem _
    · exact hhiR'
  | rateLimitError =>
    -- the product is at most the rate, so at most `hi`
    have hd := (float_half R).2
    have hdown : R.round (c * R.round (1/2)) ≤ hi :=
      (R.round_mono (mul_le_of_le_one_right (hlo.trans hlc) hd.2)).trans (hcR.symm ▸ hch)
    refine ⟨_, record_error_rate ha hhiR hc (hlo.trans hlc) hch, ?_, le_max_right _ _,
      max_le hdown (hlc.trans hch)⟩
    rcases max_choice (R.round (c * R.round (1/2))) lo with h | h <;> rw [h]
    · exact R.round_idem _
    · exact hloR'

theorem run_inv (ha : Inv R lo hi a) (hlo : 0 ≤ lo) (hloR : R.float lo = .num lo)
    (hhiR : R.float hi = .num hi) (fs : List Feedback) : Inv R lo hi (a.run R fs) := by
  induction fs generalizing a with
  | nil => exact ha
  | cons f fs ih => exact ih (record_inv ha hlo hloR hhiR f)

end Bounds

/-- **The rate stays clamped, and so does the bucket it mints.** In exact arithmetic, for a limiter
built with `0 < min_rate ≤ initial_rate ≤ max_rate`, after any sequence of reports, the rate is in
`[min_rate, max_rate]`, and `get_token_bucket` returns a bucket refilling at that positive rate with
capacity `max(⌊rate⌋, 1)`, between `1` and `max(⌊max_rate⌋, 1)`. -/
theorem rate_clamped (initialRate minRate maxRate : ℚ) (hmin : 0 < minRate)
    (hlo : minRate ≤ initialRate) (hhi : initialRate ≤ maxRate) (fs : List Feedback) (now : ℚ) :
    ∃ c, ((init .exact (.num initialRate) (.num minRate) (.num maxRate)).run .exact
        fs).currentRate = .num c ∧ minRate ≤ c ∧ c ≤ maxRate ∧
      ∃ b, ((init .exact (.num initialRate) (.num minRate) (.num maxRate)).run .exact
          fs).getTokenBucket now = .ok b ∧
        b.refillRate = .num c ∧ 0 < c ∧ b.capacity = max ⌊c⌋ 1 ∧ 1 ≤ b.capacity ∧
        b.capacity ≤ max ⌊maxRate⌋ 1 := by
  obtain ⟨c, hc, -, hlc, hch⟩ :=
    (run_inv (init_inv (R := .exact) (Rounding.exact_float _) hlo hhi) hmin.le
      (Rounding.exact_float _) (Rounding.exact_float _) fs).rate
  have hc0 : 0 < c := hmin.trans_le hlc
  exact ⟨c, hc, hlc, hch, _, getTokenBucket_num hc hc0.le now, rfl, hc0, rfl, le_max_right _ _,
    max_le_max (Int.floor_mono hch) le_rfl⟩

theorem rate_clamped_main_example :
    (0 : ℚ) < 5 ∧ (5 : ℚ) ≤ 50 ∧ (50 : ℚ) ≤ 100 ∧
      ∃ c, ((init .exact (.num 50) (.num 5) (.num 100)).run .exact
          [.success, .success, .success, .rateLimitError]).currentRate = .num c ∧ 5 ≤ c ∧
        c ≤ 100 ∧
        ∃ b, ((init .exact (.num 50) (.num 5) (.num 100)).run .exact
            [.success, .success, .success, .rateLimitError]).getTokenBucket 0 = .ok b ∧
          b.refillRate = .num c ∧ 0 < c ∧ b.capacity = max ⌊c⌋ 1 ∧ 1 ≤ b.capacity ∧
          b.capacity ≤ max ⌊(100 : ℚ)⌋ 1 :=
  ⟨by norm_num, by norm_num, by norm_num,
    rate_clamped 50 5 100 (by norm_num) (by norm_num) (by norm_num) _ 0⟩

/-! ### More successes never lower the rate -/

/-- Two reports compared position by position: `f'` is a success wherever `f` is. -/
def Feedback.Dominates (f f' : Feedback) : Prop := f = .success → f' = .success

section Bounds

variable {R} {lo hi : ℚ}

theorem record_mono {a a' : AdaptiveRateLimiter} (ha : Inv R lo hi a) (ha' : Inv R lo hi a')
    (hlo : 0 ≤ lo) (hhiR : R.float hi = .num hi) {c c' : ℚ} (hc : a.currentRate = .num c)
    (hc' : a'.currentRate = .num c') (hle : c ≤ c') {f f' : Feedback} (hf : f.Dominates f') :
    ∃ x x', (a.record R f).currentRate = .num x ∧ (a'.record R f').currentRate = .num x' ∧
      x ≤ x' := by
  obtain ⟨c₁, hc₁, hcR, hlc, hch⟩ := ha.rate
  obtain ⟨c₂, hc₂, hcR', hlc', hch'⟩ := ha'.rate
  obtain rfl : c = c₁ := PyFloat.num.inj (hc.symm.trans hc₁)
  obtain rfl : c' = c₂ := PyFloat.num.inj (hc'.symm.trans hc₂)
  have h0 := hlo.trans hlc
  have h0' := hlo.trans hlc'
  have hf1 := (float_increase R).2
  have hd := (float_half R).2
  cases f <;> cases f'
  · exact ⟨_, _, record_success_rate ha hhiR hc h0, record_success_rate ha' hhiR hc' h0',
      min_le_min (R.round_mono (mul_le_mul_of_nonneg_right hle (by linarith))) le_rfl⟩
  · exact absurd (hf rfl) (by decide)
  · -- the error update lies below the rate, the success update above it
    refine ⟨_, _, record_error_rate ha hhiR hc h0 hch, record_success_rate ha' hhiR hc' h0', ?_⟩
    have hdown : R.round (c * R.round (1/2)) ≤ c :=
      (R.round_mono (mul_le_of_le_one_right h0 hd.2)).trans hcR.le
    have hup : c' ≤ R.round (c' * R.round (11/10)) :=
      hcR'.symm.le.trans (R.round_mono (le_mul_of_one_le_right h0' hf1))
    exact (max_le hdown hlc).trans (hle.trans (le_min hup hch'))
  · exact ⟨_, _, record_error_rate ha hhiR hc h0 hch, record_error_rate ha' hhiR hc' h0' hch',
      max_le_max (R.round_mono (mul_le_mul_of_nonneg_right hle hd.1)) le_rfl⟩

end Bounds

/-- **More successes, or a higher start, never yield a lower rate.** In any rounding, for float
bounds `0 ≤ min_rate ≤ max_rate`, float starting rates `min_rate ≤ r ≤ r' ≤ max_rate` and equally
long report sequences `s` and `s'` with a success in `s'` wherever `s` has one: the rate after `s'`
from `r'` is at least the rate after `s` from `r`. -/
theorem rate_monotone (minRate maxRate : ℚ) (hmin : 0 ≤ minRate)
    (hminR : R.float minRate = .num minRate) (hmaxR : R.float maxRate = .num maxRate) (r r' : ℚ)
    (hrR : R.float r = .num r) (hr'R : R.float r' = .num r') (hr : minRate ≤ r) (hrr : r ≤ r')
    (hr' : r' ≤ maxRate) (s s' : List Feedback) (hss : List.Forall₂ Feedback.Dominates s s') :
    ((init R (.num r) (.num minRate) (.num maxRate)).run R s).currentRate.le
      ((init R (.num r') (.num minRate) (.num maxRate)).run R s').currentRate = true := by
  suffices ∀ a a' : AdaptiveRateLimiter, Inv R minRate maxRate a → Inv R minRate maxRate a' →
      ∀ c c', a.currentRate = .num c → a'.currentRate = .num c' → c ≤ c' →
      ((a.run R s).currentRate.le (a'.run R s').currentRate = true) from
    this _ _ (init_inv hrR hr (hrr.trans hr')) (init_inv hr'R (hr.trans hrr) hr') r r' rfl rfl hrr
  induction hss with
  | nil => intro a a' _ _ c c' hc hc' hle; simpa [hc, hc'] using hle
  | cons hf _ ih =>
    intro a a' ha ha' c c' hc hc' hle
    obtain ⟨x, x', hx, hx', hxx⟩ := record_mono ha ha' hmin hmaxR hc hc' hle hf
    exact ih _ _ (record_inv ha hmin hminR hmaxR _) (record_inv ha' hmin hminR hmaxR _) x x' hx hx'
      hxx

theorem rate_monotone_success_over_error :
    (0 : ℚ) ≤ 5 ∧ Rounding.binary64.float 5 = .num 5 ∧ Rounding.binary64.float 100 = .num 100 ∧
      Rounding.binary64.float 50 = .num 50 ∧ Rounding.binary64.float 60 = .num 60 ∧
      (5 : ℚ) ≤ 50 ∧ (50 : ℚ) ≤ 60 ∧ (60 : ℚ) ≤ 100 ∧
      List.Forall₂ Feedback.Dominates [.rateLimitError, .success] [.success, .success] ∧
      ((init .binary64 (.num 50) (.num 5) (.num 100)).run .binary64
          [.rateLimitError, .success]).currentRate.le
        ((init .binary64 (.num 60) (.num 5) (.num 100)).run .binary64
          [.success, .success]).currentRate = true := by
  have hss : List.Forall₂ Feedback.Dominates [.rateLimitError, .success] [.success, .success] :=
    .cons (fun h => by cases h) (.cons (fun _ => rfl) .nil)
  have h5 : Rounding.binary64.float 5 = .num 5 := by with_unfolding_all decide
  have h100 : Rounding.binary64.float 100 = .num 100 := by with_unfolding_all decide
  have h50 : Rounding.binary64.float 50 = .num 50 := by with_unfolding_all decide
  have h60 : Rounding.binary64.float 60 = .num 60 := by with_unfolding_all decide
  exact ⟨by norm_num, h5, h100, h50, h60, by norm_num, by norm_num, by norm_num, hss,
    rate_monotone .binary64 5 100 (by norm_num) h5 h100 50 60 h50 h60 (by norm_num) (by norm_num)
      (by norm_num) _ _ hss⟩

/-! ### Clamping once at the end -/

/-- `r` multiplied `k` times by `1.1`, each product rounded and none clamped. -/
def grown (r : ℚ) : ℕ → ℚ
  | 0 => r
  | k + 1 => R.round (grown r k * R.round (11/10))

/-- `r` multiplied `k` times by `0.5`, each product rounded and none clamped. -/
def shrunk (r : ℚ) : ℕ → ℚ
  | 0 => r
  | k + 1 => R.round (shrunk r k * R.round (1/2))

@[simp] theorem grown_exact (r : ℚ) (k : ℕ) : grown .exact r k = r * (11/10) ^ k := by
  induction k with
  | zero => simp [grown]
  | succ k ih => simp [grown, ih, pow_succ, mul_assoc]; rfl

@[simp] theorem shrunk_exact (r : ℚ) (k : ℕ) : shrunk .exact r k = r * (1/2) ^ k := by
  induction k with
  | zero => simp [shrunk]
  | succ k ih => simp [shrunk, ih, pow_succ, mul_assoc]; rfl

section Bounds

variable {R} {lo hi : ℚ} {a : AdaptiveRateLimiter}

theorem grown_spec {r : ℚ} (hr0 : 0 ≤ r) (hrR : R.round r = r) (k : ℕ) :
    0 ≤ grown R r k ∧ R.round (grown R r k) = grown R r k := by
  cases k with
  | zero => exact ⟨hr0, hrR⟩
  | succ k =>
    have h := grown_spec hr0 hrR k
    exact ⟨R.round_nonneg (mul_nonneg h.1 (by linarith [(float_increase R).2])),
      R.round_idem _⟩

theorem shrunk_spec {r : ℚ} (hr0 : 0 ≤ r) (hrR : R.round r = r) (k : ℕ) :
    0 ≤ shrunk R r k ∧ R.round (shrunk R r k) = shrunk R r k := by
  cases k with
  | zero => exact ⟨hr0, hrR⟩
  | succ k =>
    have h := shrunk_spec hr0 hrR k
    exact ⟨R.round_nonneg (mul_nonneg h.1 (float_half R).2.1), R.round_idem _⟩

theorem run_successes (ha : Inv R lo hi a) (hlo : 0 ≤ lo) (hloR : R.float lo = .num lo)
    (hhiR : R.float hi = .num hi) {r : ℚ} (hr : a.currentRate = .num r) (k : ℕ) :
    (a.run R (List.replicate k .success)).currentRate = .num (min (grown R r k) hi) := by
  obtain ⟨r', hr', hrR, hlr, hrh⟩ := ha.rate
  obtain rfl : r = r' := PyFloat.num.inj (hr.symm.trans hr')
  have hhiR' := (R.float_eq_num.mp hhiR).2
  have hf := (float_increase R).2
  induction k with
  | zero => simp [grown, hr, min_eq_left hrh]
  | succ k ih =>
    have hg := grown_spec (hlo.trans hlr) hrR k
    rw [List.replicate_succ', run_append, run_cons, run_nil,
      record_success_rate (run_inv ha hlo hloR hhiR _) hhiR ih
        (le_min hg.1 (hlo.trans (hlr.trans hrh))),
      grown]
    congr 1
    rcases le_or_lt (grown R r k) hi with h | h
    · rw [min_eq_left h]
    · -- past `max_rate` the clamped rate stays there, and the unclamped one grows on
      have hhi_up : hi ≤ R.round (hi * R.round (11/10)) :=
        hhiR'.symm.le.trans (R.round_mono (le_mul_of_one_le_right (hlo.trans (hlr.trans hrh)) hf))
      have hg_up : grown R r k ≤ R.round (grown R r k * R.round (11/10)) :=
        hg.2.symm.le.trans (R.round_mono (le_mul_of_one_le_right hg.1 hf))
      rw [min_eq_right h.le, min_eq_right hhi_up, min_eq_right (h.le.trans hg_up)]

theorem run_errors (ha : Inv R lo hi a) (hlo : 0 ≤ lo) (hloR : R.float lo = .num lo)
    (hhiR : R.float hi = .num hi) {r : ℚ} (hr : a.currentRate = .num r) (k : ℕ) :
    (a.run R (List.replicate k .rateLimitError)).currentRate = .num (max (shrunk R r k) lo) := by
  obtain ⟨r', hr', hrR, hlr, hrh⟩ := ha.rate
  obtain rfl : r = r' := PyFloat.num.inj (hr.symm.trans hr')
  have hloR' := (R.float_eq_num.mp hloR).2
  have hd := (float_half R).2
  induction k with
  | zero => simp [shrunk, hr, max_eq_left hlr]
  | succ k ih =>
    have hs := shrunk_spec (hlo.trans hlr) hrR k
    have hinv := run_inv ha hlo hloR hhiR (List.replicate k .rateLimitError)
    obtain ⟨c, hc, -, hlc, hch⟩ := hinv.rate
    obtain rfl : c = max (shrunk R r k) lo := PyFloat.num.inj (hc.symm.trans ih)
    rw [List.replicate_succ', run_append, run_cons, run_nil,
      record_error_rate hinv hhiR ih (hlo.trans hlc) hch, shrunk]
    congr 1
    rcases le_or_lt lo (shrunk R r k) with h | h
    · rw [max_eq_left h]
    · -- below `min_rate` the clamped rate stays there, and the unclamped one shrinks on
      have hlo_down : R.round (lo * R.round (1/2)) ≤ lo :=
        (R.round_mono (mul_le_of_le_one_right hlo hd.2)).trans hloR'.le
      have hs_down : R.round (shrunk R r k * R.round (1/2)) ≤ shrunk R r k :=
        (R.round_mono (mul_le_of_le_one_right hs.1 hd.2)).trans hs.2.le
      rw [max_eq_right h.le, max_eq_right hlo_down, max_eq_right (hs_down.trans h.le)]

end Bounds

/-- **Clamping after each step agrees with clamping once at the end.** In any rounding, for float
bounds `0 ≤ min_rate ≤ max_rate` and a float rate `r` between them, `k` successes leave
`min(grown r k, max_rate)` and `k` errors leave `max(shrunk r k, min_rate)`, where `grown r k` and
`shrunk r k` multiply `r` by `1.1`, resp. `0.5`, `k` times, rounding each product. In exact
arithmetic these are `r * (11/10) ^ k` and `r * (1/2) ^ k` (`grown_exact`, `shrunk_exact`). -/
theorem rate_closed_form (minRate maxRate : ℚ) (hmin : 0 ≤ minRate)
    (hminR : R.float minRate = .num minRate) (hmaxR : R.float maxRate = .num maxRate) (r : ℚ)
    (hrR : R.float r = .num r) (hr : minRate ≤ r) (hr' : r ≤ maxRate) (k : ℕ) :
    ((init R (.num r) (.num minRate) (.num maxRate)).run R
        (List.replicate k .success)).currentRate = .num (min (grown R r k) maxRate) ∧
      ((init R (.num r) (.num minRate) (.num maxRate)).run R
        (List.replicate k .rateLimitError)).currentRate = .num (max (shrunk R r k) minRate) :=
  ⟨run_successes (init_inv hrR hr hr') hmin hminR hmaxR rfl k,
    run_errors (init_inv hrR hr hr') hmin hminR hmaxR rfl k⟩

theorem rate_closed_form_three_successes :
    (0 : ℚ) ≤ 5 ∧ Rounding.binary64.float 5 = .num 5 ∧ Rounding.binary64.float 100 = .num 100 ∧
      Rounding.binary64.float 50 = .num 50 ∧ (5 : ℚ) ≤ 50 ∧ (50 : ℚ) ≤ 100 ∧
      (((init .binary64 (.num 50) (.num 5) (.num 100)).run .binary64
          (List.replicate 3 .success)).currentRate = .num (min (grown .binary64 50 3) 100) ∧
        ((init .binary64 (.num 50) (.num 5) (.num 100)).run .binary64
          (List.replicate 3 .rateLimitError)).currentRate =
          .num (max (shrunk .binary64 50 3) 5)) := by
  have h5 : Rounding.binary64.float 5 = .num 5 := by with_unfolding_all decide
  have h100 : Rounding.binary64.float 100 = .num 100 := by with_unfolding_all decide
  have h50 : Rounding.binary64.float 50 = .num 50 := by with_unfolding_all decide
  exact ⟨by norm_num, h5, h100, h50, by norm_num, by norm_num,
    rate_closed_form .binary64 5 100 (by norm_num) h5 h100 50 h50 (by norm_num) (by norm_num) 3⟩

/-- **The exact closed form fails in CPython.** Three successes from `50` under `[5, 100]` leave
`66.55000000000003`, not `min(50 * 1.1 ** 3, 100) = 66.55`. -/
theorem rate_closed_form_counterexample :
    ((init .binary64 (.num 50) (.num 5) (.num 100)).run .binary64
        (List.replicate 3 .success)).currentRate =
      .num 66.5500000000000255795384873636066913604736328125 ∧
      min (50 * (11/10 : ℚ) ^ 3) 100 = 66.55 :=
  ⟨by with_unfolding_all decide, by norm_num⟩

/-! ### The wait a minted bucket advertises -/

/-- **A minted bucket never asks for more than the slowest rate's wait.** In any rounding, for a
limiter built with float rates `0 < min_rate ≤ initial_rate ≤ max_rate`, after any sequence of
reports, `get_token_bucket` returns a bucket, and after any calls on it, `time_until_available_ms()`
answers without raising, between `0` and what a drained bucket at `min_rate` answers, when that
answer is defined. -/
theorem minted_bucket_wait_bounded (initialRate minRate maxRate : ℚ) (hmin : 0 < minRate)
    (hlo : minRate ≤ initialRate) (hhi : initialRate ≤ maxRate)
    (hiniR : R.float initialRate = .num initialRate) (hminR : R.float minRate = .num minRate)
    (hmaxR : R.float maxRate = .num maxRate) (fs : List Feedback) (now : ℚ)
    (cs : List TokenBucket.Call) (wmin : ℤ)
    (hslow : (TokenBucket.init 0 (.num minRate) now).timeUntilAvailableMs R = .ok wmin) :
    ∃ b, ((init R (.num initialRate) (.num minRate) (.num maxRate)).run R fs).getTokenBucket
        now = .ok b ∧
      ∃ w, (b.run R cs).timeUntilAvailableMs R = .ok w ∧ 0 ≤ w ∧ w ≤ wmin := by
  obtain ⟨c, hc, -, hlc, -⟩ := (run_inv (init_inv hiniR hlo hhi) hmin.le hminR hmaxR fs).rate
  have hc0 : 0 < c := hmin.trans_le hlc
  refine ⟨_, getTokenBucket_num hc hc0.le now, ?_⟩
  -- what a drained bucket at a rate `ρ > 0` computes
  have hR1000 : R.float 1000 = .num 1000 := by simpa using R.float_intCast (n := 1000) (by norm_num)
  have hwait : ∀ b : TokenBucket, ∀ ρ : ℚ, 0 < ρ → b.refillRate = .num ρ → b.tokens ≤ 0 →
      b.timeUntilAvailableMs R = (PyFloat.mul R (R.float (1 / ρ)) (.num 1000)).toInt := by
    intro b ρ hρ hb ht
    rw [TokenBucket.timeUntilAvailableMs_of_tokens_nonpos R ht, hb, if_neg (by simp [hρ.ne']),
      hR1000]
    rfl
  rw [hwait _ minRate hmin rfl le_rfl] at hslow
  obtain ⟨z, hz, rfl⟩ := PyFloat.toInt_eq_ok.mp hslow
  obtain ⟨y, hy, hyz⟩ := PyFloat.mul_eq_num R hz
  -- at the minted rate, `1.0 / rate` is a float no larger than `y`, and its product no larger
  obtain ⟨y', hy', hy'0, hy'y⟩ := R.float_mem (by positivity : (0 : ℚ) ≤ 1 / c)
    (one_div_le_one_div_of_le hmin hlc) R.float_zero hy
  obtain ⟨z', hz', hz'0, hz'z⟩ := R.float_mem (by positivity : (0 : ℚ) ≤ y' * 1000)
    (mul_le_mul_of_nonneg_right hy'y (by norm_num)) R.float_zero hyz
  rcases lt_or_le 0 ((TokenBucket.init (max ⌊c⌋ 1) (.num c) now).run R cs).tokens with h | h
  · exact ⟨0, TokenBucket.timeUntilAvailableMs_of_pos R h, le_rfl,
      (pyInt_nonneg hz'0).trans (pyInt_mono hz'0 hz'z)⟩
  · refine ⟨pyInt z', ?_, pyInt_nonneg hz'0, pyInt_mono hz'0 hz'z⟩
    rw [hwait _ c hc0 (by simp [TokenBucket.init]) h, hy', PyFloat.mul_num_num, hz']
    rfl

theorem minted_bucket_wait_bounded_after_errors :
    (0 : ℚ) < 5 ∧ (5 : ℚ) ≤ 50 ∧ (50 : ℚ) ≤ 100 ∧ Rounding.binary64.float 50 = .num 50 ∧
      Rounding.binary64.float 5 = .num 5 ∧ Rounding.binary64.float 100 = .num 100 ∧
      (TokenBucket.init 0 (.num 5) 0).timeUntilAvailableMs .binary64 = .ok 200 ∧
      ∃ b, ((init .binary64 (.num 50) (.num 5) (.num 100)).run .binary64
          [.rateLimitError, .rateLimitError]).getTokenBucket 0 = .ok b ∧
        ∃ w, (b.run .binary64 [.tryAcquire 12 0]).timeUntilAvailableMs .binary64 = .ok w ∧
          0 ≤ w ∧ w ≤ 200 := by
  have h50 : Rounding.binary64.float 50 = .num 50 := by with_unfolding_all decide
  have h5 : Rounding.binary64.float 5 = .num 5 := by with_unfolding_all decide
  have h100 : Rounding.binary64.float 100 = .num 100 := by with_unfolding_all decide
  have hslow : (TokenBucket.init 0 (.num 5) 0).timeUntilAvailableMs .binary64 = .ok 200 := by
    with_unfolding_all decide
  exact ⟨by norm_num, by norm_num, by norm_num, h50, h5, h100, hslow,
    minted_bucket_wait_bounded .binary64 50 5 100 (by norm_num) (by norm_num) (by norm_num) h50 h5
      h100 _ 0 _ 200 hslow⟩

end AdaptiveRateLimiter

end NornRpc
