import Mathlib.Data.Rat.Floor
import Mathlib.Data.Int.Log
import Mathlib.Algebra.Order.Field.Power
import Mathlib.Tactic.Linarith
import Mathlib.Tactic.Positivity
import Mathlib.Tactic.FieldSimp

/-!
# Rounding to binary64

CPython's `float` is an IEEE 754 binary64 double, and each arithmetic operation returns its exact
result rounded to the nearest double, a tie going to the double with an even significand. A
finite double is `m * 2 ^ j` with `|m| < 2 ^ 53` and `j ≥ -1074`, so the doubles near `x` are
the multiples of `2 ^ ulpExp x`, where `ulpExp x` keeps 53 bits below the leading bit of `x` and
never goes below the subnormal spacing `2 ^ -1074`. `roundGrid x` rounds `x` to the nearest such
multiple with `roundHalfEven`; overflow past the largest double is left to `PyFloat`.

`pow2` computes `2 ^ k` by a shift, so that `decide` can evaluate a rounding on a concrete
input; `pow2_eq` and `roundGrid_eq` restate both in Mathlib's terms.

* `roundGrid_mono`: rounding is monotone. Inside one binade both sides are rounded on one grid;
  across binades a power of two, a multiple of both ulps, separates the two results
  (`roundGrid_le_of_le`, `le_roundGrid_of_le`).
* `roundGrid_of_grid`: a double rounds to itself.
* `abs_roundGrid_sub_le`: the error is at most half an ulp, which in the normal range is at most
  `2 ^ -53` of the value (`two_pow_ulpExp_le`); on the grid of `2 ^ -1074`, where the differences
  of doubles lie, that holds in the subnormal range too, since there rounding is exact
  (`abs_roundGrid_sub_le_of_onGrid`).
-/

namespace NornRpc

/-- `2 ^ k` as a rational, computed by a shift. -/
def pow2 (k : ℤ) : ℚ :=
  if 0 ≤ k then mkRat ((1 <<< k.toNat : ℕ) : ℤ) 1 else mkRat 1 (1 <<< (-k).toNat)

theorem pow2_eq (k : ℤ) : pow2 k = 2 ^ k := by
  unfold pow2
  split_ifs with hk
  · rw [Rat.mkRat_eq_div, Nat.shiftLeft_eq, one_mul]
    push_cast
    rw [← zpow_natCast, Int.toNat_of_nonneg hk, div_one]
  · rw [Rat.mkRat_eq_div, Nat.shiftLeft_eq, one_mul]
    push_cast
    rw [← zpow_natCast, Int.toNat_of_nonneg (by omega), zpow_neg, one_div, inv_inv]

/-- The integer nearest `y`, a tie going to the even one. -/
def roundHalfEven (y : ℚ) : ℤ :=
  if y - ⌊y⌋ < 1/2 then ⌊y⌋
  else if 1/2 < y - ⌊y⌋ then ⌊y⌋ + 1
  else if ⌊y⌋ % 2 = 0 then ⌊y⌋ else ⌊y⌋ + 1

theorem roundHalfEven_cases (y : ℚ) :
    (roundHalfEven y = ⌊y⌋ ∧ y - ⌊y⌋ ≤ 1/2) ∨ (roundHalfEven y = ⌊y⌋ + 1 ∧ 1/2 ≤ y - ⌊y⌋) := by
  unfold roundHalfEven
  split_ifs with h1 h2 h3
  · exact .inl ⟨rfl, h1.le⟩
  · exact .inr ⟨rfl, h2.le⟩
  · exact .inl ⟨rfl, not_lt.mp h2⟩
  · exact .inr ⟨rfl, not_lt.mp h1⟩

theorem abs_roundHalfEven_sub_le (y : ℚ) : |(roundHalfEven y : ℚ) - y| ≤ 1/2 := by
  have h0 := Int.floor_le y
  have h1 := Int.lt_floor_add_one y
  rw [abs_le]
  rcases roundHalfEven_cases y with ⟨h, hy⟩ | ⟨h, hy⟩ <;> rw [h] <;> push_cast <;>
    constructor <;> linarith

@[simp] theorem roundHalfEven_intCast (n : ℤ) : roundHalfEven n = n := by
  simp [roundHalfEven]

theorem roundHalfEven_mono {y y' : ℚ} (h : y ≤ y') : roundHalfEven y ≤ roundHalfEven y' := by
  rcases (Int.floor_mono h).lt_or_eq with hlt | heq
  · rcases roundHalfEven_cases y with ⟨h1, -⟩ | ⟨h1, -⟩ <;>
      rcases roundHalfEven_cases y' with ⟨h2, -⟩ | ⟨h2, -⟩ <;> omega
  · unfold roundHalfEven
    rw [heq]
    split_ifs <;> first | omega | linarith

theorem roundHalfEven_le_of_le {y : ℚ} {n : ℤ} (h : y ≤ n) : roundHalfEven y ≤ n :=
  (roundHalfEven_mono h).trans_eq (roundHalfEven_intCast n)

theorem le_roundHalfEven_of_le {y : ℚ} {n : ℤ} (h : (n : ℚ) ≤ y) : n ≤ roundHalfEven y :=
  (roundHalfEven_intCast n).symm.trans_le (roundHalfEven_mono h)

/-- `⌊log₂ n⌋` for `n ≤ fuel`, by halving. Written with the recursor, so that `decide` unfolds
one halving per step however large `fuel` is. -/
def natLog2 (fuel : ℕ) : ℕ → ℕ :=
  Nat.rec (motive := fun _ => ℕ → ℕ) (fun _ => 0)
    (fun _ log n => if 2 ≤ n then log (n / 2) + 1 else 0) fuel

/-- `⌈log₂ n⌉` for `n ≤ fuel`, by halving rounded up. -/
def natClog2 (fuel : ℕ) : ℕ → ℕ :=
  Nat.rec (motive := fun _ => ℕ → ℕ) (fun _ => 0)
    (fun _ clog n => if 2 ≤ n then clog ((n + 1) / 2) + 1 else 0) fuel

theorem natLog2_eq {fuel n : ℕ} (h : n ≤ fuel) : natLog2 fuel n = Nat.log 2 n := by
  induction fuel generalizing n with
  | zero => obtain rfl : n = 0 := by omega
            exact (Nat.log_zero_right 2).symm
  | succ fuel ih =>
    show (if 2 ≤ n then natLog2 fuel (n / 2) + 1 else 0) = _
    split_ifs with h2
    · rw [ih (by omega), Nat.log_of_one_lt_of_le (by norm_num) h2]
    · rw [Nat.log_of_lt (by omega)]

theorem natClog2_eq {fuel n : ℕ} (h : n ≤ fuel) : natClog2 fuel n = Nat.clog 2 n := by
  induction fuel generalizing n with
  | zero => obtain rfl : n = 0 := by omega
            exact (Nat.clog_zero_right 2).symm
  | succ fuel ih =>
    show (if 2 ≤ n then natClog2 fuel ((n + 1) / 2) + 1 else 0) = _
    split_ifs with h2
    · rw [ih (by omega), Nat.clog_of_two_le (by norm_num) h2]; rfl
    · rw [Nat.clog_of_right_le_one (by omega)]

/-- `Int.log 2 x`, by structural recursion so that `decide` evaluates it. -/
def log2 (x : ℚ) : ℤ := if 1 ≤ x then natLog2 ⌊x⌋₊ ⌊x⌋₊ else -(natClog2 ⌈x⁻¹⌉₊ ⌈x⁻¹⌉₊ : ℕ)

theorem log2_eq (x : ℚ) : log2 x = Int.log 2 x := by
  rw [log2, Int.log, natLog2_eq le_rfl, natClog2_eq le_rfl]

/-- The exponent of the last bit binary64 keeps of `x`: 52 bits below its leading bit, and never
below the subnormal spacing `2 ^ -1074`. -/
def ulpExp (x : ℚ) : ℤ := max (log2 |x| - 52) (-1074)

theorem ulpExp_def (x : ℚ) : ulpExp x = max (Int.log 2 |x| - 52) (-1074) := by
  rw [ulpExp, log2_eq]

/-- `x` rounded to the nearest multiple of `2 ^ ulpExp x`, a tie going to the even multiple:
binary64 rounding with the exponent unbounded above. -/
def roundGrid (x : ℚ) : ℚ := roundHalfEven (x * pow2 (-ulpExp x)) * pow2 (ulpExp x)

theorem roundGrid_eq (x : ℚ) :
    roundGrid x = roundHalfEven (x / 2 ^ ulpExp x) * 2 ^ ulpExp x := by
  rw [roundGrid, pow2_eq, pow2_eq, zpow_neg, div_eq_mul_inv]

@[simp] theorem roundHalfEven_zero : roundHalfEven 0 = 0 := by
  simpa using roundHalfEven_intCast 0

@[simp] theorem roundGrid_zero : roundGrid 0 = 0 := by simp [roundGrid_eq]

theorem neg_1074_le_ulpExp (x : ℚ) : -1074 ≤ ulpExp x := le_max_right _ _

theorem two_pow_log_le {x : ℚ} (hx : x ≠ 0) : (2 : ℚ) ^ Int.log 2 |x| ≤ |x| :=
  Int.zpow_log_le_self (by norm_num) (abs_pos.mpr hx)

theorem lt_two_pow_log {x : ℚ} : |x| < (2 : ℚ) ^ (Int.log 2 |x| + 1) :=
  Int.lt_zpow_succ_log_self (by norm_num) _

theorem roundGrid_le_of_le {x : ℚ} {m j : ℤ} (hj : ulpExp x ≤ j) (hx : x ≤ m * 2 ^ j) :
    roundGrid x ≤ m * 2 ^ j := by
  set k := ulpExp x
  have hk : (0 : ℚ) < 2 ^ k := by positivity
  have hsplit : (m : ℚ) * 2 ^ j = ((m * 2 ^ (j - k).toNat : ℤ) : ℚ) * 2 ^ k := by
    push_cast
    rw [← zpow_natCast, Int.toNat_of_nonneg (by omega), mul_assoc, ← zpow_add₀ two_ne_zero]
    ring_nf
  rw [roundGrid_eq, hsplit]
  refine mul_le_mul_of_nonneg_right ?_ hk.le
  exact_mod_cast roundHalfEven_le_of_le ((div_le_iff₀ hk).mpr (hsplit ▸ hx))

theorem le_roundGrid_of_le {x : ℚ} {m j : ℤ} (hj : ulpExp x ≤ j) (hx : m * 2 ^ j ≤ x) :
    m * 2 ^ j ≤ roundGrid x := by
  set k := ulpExp x
  have hk : (0 : ℚ) < 2 ^ k := by positivity
  have hsplit : (m : ℚ) * 2 ^ j = ((m * 2 ^ (j - k).toNat : ℤ) : ℚ) * 2 ^ k := by
    push_cast
    rw [← zpow_natCast, Int.toNat_of_nonneg (by omega), mul_assoc, ← zpow_add₀ two_ne_zero]
    ring_nf
  rw [roundGrid_eq, hsplit]
  refine mul_le_mul_of_nonneg_right ?_ hk.le
  exact_mod_cast le_roundHalfEven_of_le ((le_div_iff₀ hk).mpr (hsplit ▸ hx))


theorem ulpExp_le_of_lt {x : ℚ} {j : ℤ} (hx : x ≠ 0) (hj : -1074 ≤ j) (h : |x| < 2 ^ (j + 53)) :
    ulpExp x ≤ j := by
  have := (Int.lt_zpow_iff_log_lt (by norm_num : 1 < 2) (abs_pos.mpr hx)).mp h
  rw [ulpExp_def]
  exact max_le (by omega) hj

/-- **Rounding is monotone.** -/
theorem roundGrid_mono {x y : ℚ} (h : x ≤ y) : roundGrid x ≤ roundGrid y := by
  rcases eq_or_ne x 0 with rfl | hx
  · simpa using le_roundGrid_of_le (m := 0) le_rfl (by simpa using h)
  rcases eq_or_ne y 0 with rfl | hy
  · simpa using roundGrid_le_of_le (m := 0) le_rfl (by simpa using h)
  have ex := two_pow_log_le hx
  have ey := two_pow_log_le hy
  have ex' := lt_two_pow_log (x := x)
  have ey' := lt_two_pow_log (x := y)
  rcases lt_trichotomy (ulpExp x) (ulpExp y) with hlt | heq | hgt
  · -- `y` is normal, a binade above `x`: the power of two between them separates the roundings
    have hk : ulpExp y = Int.log 2 |y| - 52 := by
      simp only [ulpExp_def] at hlt ⊢; have := neg_1074_le_ulpExp x; rw [ulpExp_def] at this; omega
    have hxy : ulpExp x + 53 ≤ Int.log 2 |y| := by omega
    have hlog : Int.log 2 |x| + 1 ≤ Int.log 2 |y| := by
      have := le_max_left (Int.log 2 |x| - 52) (-1074); rw [ulpExp_def] at hxy; omega
    have hpow : (2 : ℚ) ^ (Int.log 2 |x| + 1) ≤ 2 ^ Int.log 2 |y| :=
      zpow_le_zpow_right₀ (by norm_num) hlog
    have hy0 : 0 < y := by
      by_contra hy0
      have hyn : y < 0 := lt_of_le_of_ne (not_lt.mp hy0) hy
      have : |y| ≤ |x| := by rw [abs_of_neg hyn, abs_of_neg (h.trans_lt hyn)]; linarith
      linarith
    have hay : |y| = y := abs_of_pos hy0
    have h1 := roundGrid_le_of_le (m := 1) (j := Int.log 2 |y|) (x := x) (by omega)
      (by push_cast; linarith [le_abs_self x])
    have h2 := le_roundGrid_of_le (m := 1) (j := Int.log 2 |y|) (x := y) (by omega)
      (by push_cast; linarith)
    push_cast at h1 h2
    linarith
  · rw [roundGrid_eq, roundGrid_eq, heq]
    refine mul_le_mul_of_nonneg_right ?_ (by positivity)
    exact_mod_cast roundHalfEven_mono (div_le_div_of_nonneg_right h (by positivity))
  · -- `x` is normal and negative, a binade below `y`
    have hk : ulpExp x = Int.log 2 |x| - 52 := by
      simp only [ulpExp_def] at hgt ⊢; have := neg_1074_le_ulpExp y; rw [ulpExp_def] at this; omega
    have hlog : Int.log 2 |y| + 1 ≤ Int.log 2 |x| := by
      have := le_max_left (Int.log 2 |y| - 52) (-1074); simp only [ulpExp_def] at hgt; omega
    have hpow : (2 : ℚ) ^ (Int.log 2 |y| + 1) ≤ 2 ^ Int.log 2 |x| :=
      zpow_le_zpow_right₀ (by norm_num) hlog
    have hx0 : x < 0 := by
      by_contra hx0
      have hxp : 0 < x := lt_of_le_of_ne (not_lt.mp hx0) hx.symm
      have : |x| ≤ |y| := by rw [abs_of_pos hxp, abs_of_pos (hxp.trans_le h)]; linarith
      linarith
    have hax : |x| = -x := abs_of_neg hx0
    have h1 := roundGrid_le_of_le (m := -1) (j := Int.log 2 |x|) (x := x) (by omega)
      (by push_cast; linarith)
    have h2 := le_roundGrid_of_le (m := -1) (j := Int.log 2 |x|) (x := y) (by omega)
      (by push_cast; linarith [neg_abs_le y])
    push_cast at h1 h2
    linarith

/-- **A multiple of a power of two from `2 ^ -1074` on, with at most 53 bits, is a double**: it
rounds to itself. -/
theorem roundGrid_of_grid {m j : ℤ} (hm : |m| < 2 ^ 53) (hj : -1074 ≤ j) :
    roundGrid (m * 2 ^ j) = m * 2 ^ j := by
  rcases eq_or_ne m 0 with rfl | hm0
  · simp
  have hk : ulpExp (m * 2 ^ j) ≤ j := by
    refine ulpExp_le_of_lt (by positivity) hj ?_
    rw [abs_mul, abs_of_pos (by positivity : (0 : ℚ) < 2 ^ j), zpow_add₀ two_ne_zero, mul_comm]
    exact mul_lt_mul_of_pos_left (by exact_mod_cast hm) (by positivity)
  exact le_antisymm (roundGrid_le_of_le hk le_rfl) (le_roundGrid_of_le hk le_rfl)

theorem abs_div_two_pow_ulpExp_lt (x : ℚ) : |x / 2 ^ ulpExp x| < 2 ^ 53 := by
  have hk : Int.log 2 |x| + 1 ≤ ulpExp x + 53 := by rw [ulpExp_def]; omega
  rw [abs_div, abs_of_pos (by positivity : (0 : ℚ) < 2 ^ ulpExp x), div_lt_iff₀ (by positivity)]
  calc |x| < 2 ^ (Int.log 2 |x| + 1) := lt_two_pow_log
    _ ≤ 2 ^ (ulpExp x + 53) := zpow_le_zpow_right₀ (by norm_num) hk
    _ = 2 ^ 53 * 2 ^ ulpExp x := by rw [zpow_add₀ two_ne_zero, mul_comm]; norm_num

theorem roundGrid_of_grid_le {m j : ℤ} (hm : |m| ≤ 2 ^ 53) (hj : -1074 ≤ j) :
    roundGrid (m * 2 ^ j) = m * 2 ^ j := by
  rcases hm.lt_or_eq with h | h
  · exact roundGrid_of_grid h hj
  · -- `±2 ^ 53` times `2 ^ j` is `±2 ^ 52` times `2 ^ (j + 1)`
    have hnext : ∀ n : ℤ, ((n * 2 : ℤ) : ℚ) * 2 ^ j = n * 2 ^ (j + 1) := fun n => by
      push_cast; rw [zpow_add_one₀ two_ne_zero]; ring
    rcases (abs_eq (by norm_num)).mp h with rfl | rfl
    · rw [show (2 : ℤ) ^ 53 = 2 ^ 52 * 2 by norm_num, hnext]
      exact roundGrid_of_grid (by norm_num) (by omega)
    · rw [show -(2 : ℤ) ^ 53 = -2 ^ 52 * 2 by norm_num, hnext]
      exact roundGrid_of_grid (by norm_num) (by omega)

theorem abs_roundHalfEven_le (x : ℚ) : |roundHalfEven (x / 2 ^ ulpExp x)| ≤ 2 ^ 53 := by
  have hlt := abs_lt.mp (abs_div_two_pow_ulpExp_lt x)
  exact abs_le.mpr ⟨le_roundHalfEven_of_le (by push_cast; linarith),
    roundHalfEven_le_of_le (by push_cast; linarith)⟩

/-- **Rounding a double gives it back.** -/
theorem roundGrid_roundGrid (x : ℚ) : roundGrid (roundGrid x) = roundGrid x := by
  rw [roundGrid_eq x]
  exact roundGrid_of_grid_le (abs_roundHalfEven_le x) (neg_1074_le_ulpExp x)

theorem roundGrid_mul_two_pow (x : ℚ) (k : ℕ) :
    roundGrid (roundGrid x * 2 ^ k) = roundGrid x * 2 ^ k := by
  have hk : (2 : ℚ) ^ ulpExp x * 2 ^ k = 2 ^ (ulpExp x + k) := by
    rw [zpow_add₀ two_ne_zero, zpow_natCast]
  rw [roundGrid_eq x, mul_assoc, hk]
  exact roundGrid_of_grid_le (abs_roundHalfEven_le x) (by have := neg_1074_le_ulpExp x; omega)

/-- **The rounding error is at most half an ulp.** -/
theorem abs_roundGrid_sub_le (x : ℚ) : |roundGrid x - x| ≤ 2 ^ ulpExp x / 2 := by
  have hk : (0 : ℚ) < 2 ^ ulpExp x := by positivity
  have h := abs_roundHalfEven_sub_le (x / 2 ^ ulpExp x)
  rw [roundGrid_eq, show (roundHalfEven (x / 2 ^ ulpExp x) : ℚ) * 2 ^ ulpExp x - x =
    ((roundHalfEven (x / 2 ^ ulpExp x) : ℚ) - x / 2 ^ ulpExp x) * 2 ^ ulpExp x by
      field_simp, abs_mul, abs_of_pos hk]
  nlinarith

theorem two_pow_ulpExp_le {x : ℚ} (hx : 2 ^ (-1022 : ℤ) ≤ |x|) : 2 ^ ulpExp x ≤ |x| / 2 ^ 52 := by
  have hx0 : x ≠ 0 := abs_pos.mp (lt_of_lt_of_le (by positivity) hx)
  have hlog : -1022 ≤ Int.log 2 |x| :=
    (Int.zpow_le_iff_le_log (by norm_num : 1 < 2) (abs_pos.mpr hx0)).mp hx
  have hk : ulpExp x = Int.log 2 |x| - 52 := (ulpExp_def x).trans (max_eq_left (by omega))
  rw [hk, le_div_iff₀ (by positivity), ← zpow_natCast, ← zpow_add₀ two_ne_zero]
  simpa using two_pow_log_le hx0

theorem abs_roundGrid_sub_le_of_normal {x : ℚ} (hx : 2 ^ (-1022 : ℤ) ≤ |x|) :
    |roundGrid x - x| ≤ |x| / 2 ^ 53 :=
  calc |roundGrid x - x| ≤ 2 ^ ulpExp x / 2 := abs_roundGrid_sub_le x
    _ ≤ |x| / 2 ^ 52 / 2 := div_le_div_of_nonneg_right (two_pow_ulpExp_le hx) (by norm_num)
    _ = |x| / 2 ^ 53 := by ring

theorem roundGrid_two_zpow {j : ℤ} (hj : -1074 ≤ j) : roundGrid (2 ^ j) = 2 ^ j := by
  simpa using roundGrid_of_grid (m := 1) (by norm_num) hj

theorem normal_of_lt_roundGrid {z : ℚ} (h : 2 ^ (-1022 : ℤ) < roundGrid z) :
    2 ^ (-1022 : ℤ) ≤ z := by
  by_contra hz
  have := roundGrid_mono (not_le.mp hz).le
  rw [roundGrid_two_zpow (by norm_num)] at this
  linarith

/-! ### The grid of `2 ^ -1074` -/

/-- `x` is a multiple of `2 ^ -1074`, as every double is. -/
def OnGrid (x : ℚ) : Prop := ∃ m : ℤ, x = m * 2 ^ (-1074 : ℤ)

theorem onGrid_roundGrid (x : ℚ) : OnGrid (roundGrid x) := by
  refine ⟨roundHalfEven (x / 2 ^ ulpExp x) * 2 ^ (ulpExp x + 1074).toNat, ?_⟩
  have h := neg_1074_le_ulpExp x
  rw [roundGrid_eq]
  push_cast
  rw [← zpow_natCast, Int.toNat_of_nonneg (by omega), mul_assoc, ← zpow_add₀ two_ne_zero]
  ring_nf

theorem OnGrid.sub {x y : ℚ} (hx : OnGrid x) (hy : OnGrid y) : OnGrid (x - y) := by
  obtain ⟨m, rfl⟩ := hx
  obtain ⟨n, rfl⟩ := hy
  exact ⟨m - n, by push_cast; ring⟩

theorem roundGrid_of_onGrid_small {x : ℚ} (hx : OnGrid x) (hsmall : |x| < 2 ^ (-1021 : ℤ)) :
    roundGrid x = x := by
  obtain ⟨m, rfl⟩ := hx
  refine roundGrid_of_grid ?_ le_rfl
  rw [abs_mul, abs_of_pos (by positivity : (0 : ℚ) < 2 ^ (-1074 : ℤ)),
    show (2 : ℚ) ^ (-1021 : ℤ) = 2 ^ 53 * 2 ^ (-1074 : ℤ) by
      rw [← zpow_natCast, ← zpow_add₀ two_ne_zero]; norm_num] at hsmall
  exact_mod_cast lt_of_mul_lt_mul_right hsmall (by positivity)

/-- **The relative error on the grid**: at most `2 ^ -53` of the value, the subnormal range
included. -/
theorem abs_roundGrid_sub_le_of_onGrid {x : ℚ} (hx : OnGrid x) :
    |roundGrid x - x| ≤ |x| / 2 ^ 53 := by
  rcases le_or_lt (2 ^ (-1022 : ℤ)) |x| with h | h
  · exact abs_roundGrid_sub_le_of_normal h
  · rw [roundGrid_of_onGrid_small hx (h.trans (zpow_lt_zpow_right₀ (by norm_num) (by norm_num))),
      sub_self, abs_zero]
    positivity

end NornRpc
