import NornRpc.Float.Rounding

/-!
# Python floats

A Python `float` is a finite double, an infinity or a NaN (`PyFloat`). A zero is kept without its
sign: nothing the modelled code does with a float depends on it. Each arithmetic operation
computes its exact result and hands it to a `Rounding`, which rounds it into the format and
reports an overflow, where the operation returns the infinity of the result's sign (`float`).
CPython's rounding is `Rounding.binary64`; `Rounding.exact` computes with exact rationals, the
reading some statements about the code are made in. Everything that holds for every rounding is
proved from the laws a `Rounding` carries: it is monotone, keeps the integers up to `2 ^ 53`, and
overflows only past them, on both sides alike.

The operations are those of CPython on floats: `a - b`, `a * b`, `a / b` (raising
`ZeroDivisionError` for a zero divisor), `x ** k` for an `int` `k ≥ 0` (raising `OverflowError`
for an infinite result), `float(n)` for an `int` (raising `OverflowError` past the largest
double), `int(x)` (truncating toward zero, raising `OverflowError` for an infinity and
`ValueError` for a NaN), the comparisons `<` and `<=` (false whenever a NaN is involved), and the
builtins `min` and `max` on two floats, which keep their first argument on a tie.

`float_le_float` is the monotonicity of a whole operation: a larger exact result never gives a
smaller float, the infinities included.
-/

namespace NornRpc

/-- Python's `int(x)` on a finite float: truncation toward zero. -/
def pyInt (x : ℚ) : ℤ := if 0 ≤ x then ⌊x⌋ else ⌈x⌉

theorem pyInt_of_nonneg {x : ℚ} (hx : 0 ≤ x) : pyInt x = ⌊x⌋ := if_pos hx

theorem pyInt_nonpos {x : ℚ} (hx : x < 0) : pyInt x ≤ 0 := by
  rw [pyInt, if_neg (not_le.mpr hx), Int.ceil_le]
  exact_mod_cast hx.le

theorem pyInt_pos {x : ℚ} : 0 < pyInt x ↔ 1 ≤ x := by
  rcases le_or_lt 0 x with hx | hx
  · rw [pyInt_of_nonneg hx, Int.floor_pos]
  · have := pyInt_nonpos hx
    constructor <;> intro h <;> linarith

theorem pyInt_nonneg {x : ℚ} (hx : 0 ≤ x) : 0 ≤ pyInt x := by
  rw [pyInt_of_nonneg hx]
  exact Int.floor_nonneg.mpr hx

theorem pyInt_mono {x y : ℚ} (hx : 0 ≤ x) (h : x ≤ y) : pyInt x ≤ pyInt y := by
  rw [pyInt_of_nonneg hx, pyInt_of_nonneg (hx.trans h)]
  exact Int.floor_mono h

theorem pyInt_eq_floor_of_pos {x : ℚ} (h : 0 < pyInt x) : pyInt x = ⌊x⌋ :=
  pyInt_of_nonneg (by linarith [pyInt_pos.mp h])

@[simp] theorem pyInt_intCast (n : ℤ) : pyInt n = n := by
  rcases le_or_lt 0 n with h | h
  · rw [pyInt_of_nonneg (by exact_mod_cast h), Int.floor_intCast]
  · rw [pyInt, if_neg (by exact_mod_cast h.not_le), Int.ceil_intCast]

/-- A Python float: a finite double, the infinity of a sign (`neg` for `-inf`), or a NaN. -/
inductive PyFloat where
  | num (x : ℚ)
  | inf (neg : Bool)
  | nan
  deriving Repr

/-- Equality through the numerator and denominator of a finite value, which `decide` can
evaluate. -/
instance : DecidableEq PyFloat
  | .num x, .num y =>
    if h : x.num = y.num ∧ x.den = y.den then isTrue (congrArg PyFloat.num (Rat.ext h.1 h.2))
    else isFalse fun e => h (by cases e; exact ⟨rfl, rfl⟩)
  | .inf a, .inf b => if h : a = b then isTrue (h ▸ rfl) else isFalse fun e => h (by cases e; rfl)
  | .nan, .nan => isTrue rfl
  | .num _, .inf _ | .num _, .nan | .inf _, .num _ | .inf _, .nan | .nan, .num _ | .nan, .inf _ =>
    isFalse fun e => by cases e

/-- The exceptions float operations raise, with their messages. -/
inductive PyError where
  | overflowError (message : String)
  | valueError (message : String)
  | zeroDivisionError (message : String)
  deriving DecidableEq, Repr

/-- Outcomes compare as their values or their exceptions, so that concrete runs can be decided. -/
instance decEqExcept {ε α : Type} [DecidableEq ε] [DecidableEq α] : DecidableEq (Except ε α)
  | .ok a, .ok b => decidable_of_iff (a = b) ⟨congrArg _, Except.ok.inj⟩
  | .error a, .error b => decidable_of_iff (a = b) ⟨congrArg _, Except.error.inj⟩
  | .ok _, .error _ => isFalse fun h => Except.noConfusion h
  | .error _, .ok _ => isFalse fun h => Except.noConfusion h

namespace PyFloat

/-- Python's `a < b`. -/
def lt : PyFloat → PyFloat → Bool
  | num x, num y => decide (x < y)
  | num _, inf neg => !neg
  | inf neg, num _ => neg
  | inf a, inf b => a && !b
  | _, _ => false

/-- Python's `a <= b`. -/
def le : PyFloat → PyFloat → Bool
  | num x, num y => decide (x ≤ y)
  | num _, inf neg => !neg
  | inf neg, num _ => neg
  | inf a, inf b => a || !b
  | _, _ => false

/-- `int(x)`. -/
def toInt : PyFloat → Except PyError ℤ
  | num x => .ok (pyInt x)
  | inf _ => .error (.overflowError "cannot convert float infinity to integer")
  | nan => .error (.valueError "cannot convert float NaN to integer")

/-- `min(a, b)`: `b` only when `b < a`. -/
def pyMin (a b : PyFloat) : PyFloat := if b.lt a then b else a

/-- `max(a, b)`: `b` only when `b > a`. -/
def pyMax (a b : PyFloat) : PyFloat := if a.lt b then b else a

@[simp] theorem lt_num_num (x y : ℚ) : (num x).lt (num y) = decide (x < y) := rfl

@[simp] theorem le_num_num (x y : ℚ) : (num x).le (num y) = decide (x ≤ y) := rfl

@[simp] theorem toInt_num (x : ℚ) : (num x).toInt = .ok (pyInt x) := rfl

theorem toInt_eq_ok {v : PyFloat} {n : ℤ} : v.toInt = .ok n ↔ ∃ x, v = num x ∧ pyInt x = n := by
  cases v <;> simp [toInt, eq_comm]

theorem le_trans' {a b c : PyFloat} (hab : a.le b) (hbc : b.le c) : a.le c := by
  cases a <;> cases b <;> cases c <;> simp only [le, decide_eq_true_eq, Bool.false_eq_true] at * <;>
    first | linarith | (cases_type* Bool <;> simp_all)

theorem lt_of_lt_of_le {a b c : PyFloat} (hab : a.lt b) (hbc : b.le c) : a.lt c := by
  cases a <;> cases b <;> cases c <;>
    simp only [lt, le, decide_eq_true_eq, Bool.false_eq_true] at * <;>
    first | linarith | (cases_type* Bool <;> simp_all)

theorem lt_of_le_of_lt {a b c : PyFloat} (hab : a.le b) (hbc : b.lt c) : a.lt c := by
  cases a <;> cases b <;> cases c <;>
    simp only [lt, le, decide_eq_true_eq, Bool.false_eq_true] at * <;>
    first | linarith | (cases_type* Bool <;> simp_all)

theorem lt_eq_not_le {a b : PyFloat} (ha : a ≠ nan) (hb : b ≠ nan) : a.lt b = !(b.le a) := by
  cases a <;> cases b <;> simp_all [lt, le, Bool.and_comm]
  simp only [← decide_not, not_le]

end PyFloat

/-- How the exact result of a float operation becomes a float: `round` rounds it into the format,
with the exponent range unbounded, and `overflows` tells a rounded value past the largest finite
float. -/
structure Rounding where
  round : ℚ → ℚ
  overflows : ℚ → Bool
  round_mono : Monotone round
  round_intCast : ∀ n : ℤ, |n| ≤ 2 ^ 53 → round n = n
  round_idem : ∀ x, round (round x) = round x
  overflows_mono : ∀ {x y : ℚ}, |x| ≤ |y| → overflows x → overflows y
  lt_of_overflows : ∀ {x : ℚ}, overflows x → 2 ^ 53 < |x|

namespace Rounding

variable (R : Rounding)

/-- The float an operation with exact result `x` returns. -/
def float (x : ℚ) : PyFloat :=
  if R.overflows (R.round x) then .inf (decide (x < 0)) else .num (R.round x)

/-- Exact rational arithmetic: nothing is rounded and nothing overflows. -/
def exact : Rounding where
  round := id
  overflows _ := false
  round_mono := monotone_id
  round_intCast _ _ := rfl
  round_idem _ := rfl
  overflows_mono _ h := h
  lt_of_overflows h := absurd h Bool.false_ne_true

theorem roundGrid_intCast {n : ℤ} (hn : |n| ≤ 2 ^ 53) : roundGrid n = n := by
  rcases hn.lt_or_eq with hlt | heq
  · simpa using roundGrid_of_grid (j := 0) hlt (by norm_num)
  · -- `±2 ^ 53` is `±1` times a power of two
    rcases abs_eq (by norm_num : (0 : ℤ) ≤ 2 ^ 53) |>.mp heq with rfl | rfl
    · have h := roundGrid_of_grid (m := 1) (j := 53) (by norm_num) (by norm_num)
      norm_num at h ⊢
      exact h
    · have h := roundGrid_of_grid (m := -1) (j := 53) (by norm_num) (by norm_num)
      norm_num at h ⊢
      exact h

/-- CPython's float arithmetic: IEEE 754 binary64, rounding to nearest with ties to even, and
overflow from `2 ^ 1024` on. -/
def binary64 : Rounding where
  round := roundGrid
  overflows y := decide (pow2 1024 ≤ |y|)
  round_mono _ _ := roundGrid_mono
  round_intCast _ := roundGrid_intCast
  round_idem := roundGrid_roundGrid
  overflows_mono hxy h := decide_eq_true ((of_decide_eq_true h).trans hxy)
  lt_of_overflows h := by
    have := of_decide_eq_true h
    rw [pow2_eq] at this
    exact lt_of_lt_of_le (by norm_num) this

@[simp] theorem exact_float (x : ℚ) : exact.float x = .num x := rfl

theorem binary64_float (x : ℚ) : binary64.float x =
    if pow2 1024 ≤ |roundGrid x| then .inf (decide (x < 0)) else .num (roundGrid x) := by
  simp [float, binary64]

theorem not_overflows_intCast {n : ℤ} (hn : |n| ≤ 2 ^ 53) : R.overflows (R.round n) = false := by
  rw [R.round_intCast n hn]
  by_contra h
  have := R.lt_of_overflows (Bool.not_eq_false _ ▸ h)
  exact absurd (by exact_mod_cast hn : |(n : ℚ)| ≤ 2 ^ 53) (not_le.mpr this)

theorem float_intCast {n : ℤ} (hn : |n| ≤ 2 ^ 53) : R.float n = .num n := by
  rw [float, R.not_overflows_intCast hn, R.round_intCast n hn]
  rfl

@[simp] theorem float_zero : R.float 0 = .num 0 := by
  simpa using R.float_intCast (n := 0) (by norm_num)

@[simp] theorem float_one : R.float 1 = .num 1 := by
  simpa using R.float_intCast (n := 1) (by norm_num)

theorem round_zero : R.round 0 = 0 := by simpa using R.round_intCast 0 (by norm_num)

theorem round_nonneg {x : ℚ} (hx : 0 ≤ x) : 0 ≤ R.round x := R.round_zero ▸ R.round_mono hx

theorem float_ne_nan (x : ℚ) : R.float x ≠ .nan := by
  unfold float; split_ifs <;> simp

theorem float_eq_num {x y : ℚ} :
    R.float x = .num y ↔ R.overflows (R.round x) = false ∧ R.round x = y := by
  unfold float; split_ifs with h <;> simp [h]

theorem float_of_float_eq {x y : ℚ} (h : R.float x = .num y) : R.float y = .num y := by
  obtain ⟨ho, rfl⟩ := R.float_eq_num.mp h
  exact R.float_eq_num.mpr ⟨by rw [R.round_idem]; exact ho, R.round_idem x⟩

/-- **A larger exact result never gives a smaller float.** -/
theorem float_le_float {x y : ℚ} (h : x ≤ y) : (R.float x).le (R.float y) = true := by
  have hr := R.round_mono h
  have h0 := R.round_zero
  unfold float
  split_ifs with hx hy hy
  · -- both overflow: not `+inf` below `-inf`
    by_cases hx0 : x < 0 <;> by_cases hy0 : y < 0 <;> simp [PyFloat.le, hx0, hy0]
    exact hx0 (h.trans_lt hy0)
  · -- only `x` overflows, so it is negative
    by_contra hn
    have hx0 : 0 ≤ x := by by_contra hx0; simp [PyFloat.le, not_le.mp hx0] at hn
    have := R.round_mono hx0
    exact hy (R.overflows_mono
      (by rw [abs_of_nonneg (h0 ▸ this), abs_of_nonneg (by linarith)]; exact hr) hx)
  · -- only `y` overflows, so it is positive
    by_contra hn
    have hy0 : y < 0 := by by_contra hy0; simp [PyFloat.le, hy0] at hn
    have := R.round_mono hy0.le
    exact hx (R.overflows_mono
      (by rw [abs_of_nonpos (h0 ▸ this), abs_of_nonpos (by linarith)]; linarith) hy)
  · simpa [PyFloat.le] using hr

theorem pos_of_float_eq {x y : ℚ} (h : R.float x = .num y) (hy : 0 < y) : 0 < x := by
  by_contra hx
  have := R.float_le_float (not_lt.mp hx)
  rw [h, float_zero] at this
  simp at this
  linarith

theorem float_mem {a x b a' b' : ℚ} (hax : a ≤ x) (hxb : x ≤ b) (ha : R.float a = .num a')
    (hb : R.float b = .num b') : ∃ y, R.float x = .num y ∧ a' ≤ y ∧ y ≤ b' := by
  have h1 := R.float_le_float hax
  have h2 := R.float_le_float hxb
  rw [ha] at h1
  rw [hb] at h2
  rcases hx : R.float x with y | n | _ <;> rw [hx] at h1 h2
  · exact ⟨y, rfl, by simpa using h1, by simpa using h2⟩
  · cases n <;> simp [PyFloat.le] at h1 h2
  · simp [PyFloat.le] at h1

theorem pyMin_float {z m : ℚ} (hz : 0 ≤ z) (hm : R.float m = .num m) :
    (R.float z).pyMin (.num m) = .num (min (R.round z) m) := by
  obtain ⟨hmo, hmr⟩ := R.float_eq_num.mp hm
  have h0 : 0 ≤ R.round z := R.round_nonneg hz
  unfold float
  split_ifs with ho
  · -- `+inf`, and the exact result rounds above `m`
    have hlt : m < R.round z := by
      by_contra hle
      have := R.overflows_mono (x := R.round z) (y := R.round m)
        (by rw [hmr, abs_of_nonneg h0, abs_of_nonneg (h0.trans (not_lt.mp hle))]
            exact not_lt.mp hle)
        ho
      rw [hmo] at this
      exact Bool.false_ne_true this
    rw [decide_eq_false (not_lt.mpr hz), min_eq_right hlt.le]
    rfl
  · simp only [PyFloat.pyMin, PyFloat.lt_num_num, decide_eq_true_eq]
    split_ifs with h
    · rw [min_eq_right h.le]
    · rw [min_eq_left (not_lt.mp h)]

theorem pyMax_float {z m : ℚ} (hz : R.overflows (R.round z) = false) :
    (R.float z).pyMax (.num m) = .num (max (R.round z) m) := by
  simp only [float, hz, Bool.false_eq_true, if_false, PyFloat.pyMax, PyFloat.lt_num_num,
    decide_eq_true_eq]
  split_ifs with h
  · rw [max_eq_right h.le]
  · rw [max_eq_left (not_lt.mp h)]

end Rounding

namespace PyFloat

variable (R : Rounding)

/-- `a - b`. -/
def sub : PyFloat → PyFloat → PyFloat
  | nan, _ => nan
  | _, nan => nan
  | num x, num y => R.float (x - y)
  | num _, inf n => inf (!n)
  | inf n, num _ => inf n
  | inf n, inf m => if n = m then nan else inf n

/-- `a * b`. -/
def mul : PyFloat → PyFloat → PyFloat
  | nan, _ => nan
  | _, nan => nan
  | num x, num y => R.float (x * y)
  | num x, inf n => if x = 0 then nan else inf (n != decide (x < 0))
  | inf n, num y => if y = 0 then nan else inf (n != decide (y < 0))
  | inf n, inf m => inf (n != m)

/-- `a / b` for a divisor other than zero. -/
def trueDiv : PyFloat → PyFloat → PyFloat
  | nan, _ => nan
  | _, nan => nan
  | num x, num y => R.float (x / y)
  | num _, inf _ => num 0
  | inf n, num y => inf (n != decide (y < 0))
  | inf _, inf _ => nan

/-- `a / b`: `ZeroDivisionError` for a zero divisor. -/
def div (a b : PyFloat) : Except PyError PyFloat :=
  if b = num 0 then .error (.zeroDivisionError "float division by zero") else .ok (trueDiv R a b)

/-- `float(n)`, as `int * float` and `int / float` convert their `int` operand. -/
def ofInt (n : ℤ) : Except PyError PyFloat :=
  match R.float n with
  | inf _ => .error (.overflowError "int too large to convert to float")
  | v => .ok v

/-- `x ** k` for an `int` exponent `k ≥ 0`: the power rounded once, and an infinite result of a
finite base an `OverflowError`. -/
def powNat (x : PyFloat) (k : ℕ) : Except PyError PyFloat :=
  match x with
  | num a =>
    match R.float (a ^ k) with
    | inf _ => .error (.overflowError "(34, 'Numerical result out of range')")
    | v => .ok v
  | inf n => .ok (if k = 0 then num 1 else inf (n && k % 2 == 1))
  | nan => .ok (if k = 0 then num 1 else nan)

@[simp] theorem sub_num_num (x y : ℚ) : sub R (num x) (num y) = R.float (x - y) := rfl

@[simp] theorem mul_num_num (x y : ℚ) : mul R (num x) (num y) = R.float (x * y) := rfl

theorem ofInt_eq (n : ℤ) : ofInt R n =
    if R.overflows (R.round n) then .error (.overflowError "int too large to convert to float")
    else .ok (num (R.round n)) := by
  unfold ofInt Rounding.float; split_ifs <;> rfl

theorem powNat_num (a : ℚ) (k : ℕ) : powNat R (num a) k =
    if R.overflows (R.round (a ^ k)) then
      .error (.overflowError "(34, 'Numerical result out of range')")
    else .ok (num (R.round (a ^ k))) := by
  simp only [powNat, Rounding.float]; split_ifs <;> rfl

theorem toInt_float (x : ℚ) : (R.float x).toInt =
    if R.overflows (R.round x) then
      .error (.overflowError "cannot convert float infinity to integer")
    else .ok (pyInt (R.round x)) := by
  unfold Rounding.float; split_ifs <;> rfl

theorem mul_eq_num {a : PyFloat} {y x : ℚ} (h : mul R a (num y) = num x) :
    ∃ e, a = num e ∧ R.float (e * y) = num x := by
  cases a with
  | num e => exact ⟨e, rfl, h⟩
  | inf n => simp only [mul] at h; split_ifs at h
  | nan => cases h

end PyFloat

end NornRpc
