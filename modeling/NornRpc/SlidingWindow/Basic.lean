import NornRpc.Float.PyFloat
import Mathlib.Data.List.Sort

/-!
# The sliding window

`SlidingWindow` of `rate_limiting_utilities.py`: a log of the readings of admitted requests, oldest
first. Both methods first run the same pruning loop, popping from the left while the oldest entry
is more than `window_duration` before `now` (`prune`, Python's `while ... popleft()`, which is
`List.dropWhile`), the difference `now - e` computed in the float arithmetic of a `Rounding`;
`try_acquire` then appends `now` if the pruned log is shorter than `max_requests`. As for the
token bucket, each call runs under the lock and is one `step` at its own clock reading.

The loop trims a prefix, which is the entries outside the window only while the log is sorted and
the rounded difference grows with `now - e` (`dropWhile_eq_filter`); a pruning at a later reading
drops whatever an earlier one dropped (`prune_prune`). So on a sorted log the loop keeps exactly
the entries whose rounded age is at most `window_duration`, as a suffix (`prune_keeps_window`).
Calls at one instant keep every entry, so of a burst at one reading exactly the first
`max_requests` are granted, and a reading whose rounded distance from it exceeds
`window_duration` finds the window empty again (`same_instant_burst`).
-/

namespace NornRpc

/-- A sliding window's fields (`max_requests`, `window_duration`, `requests`). -/
structure SlidingWindow where
  maxRequests : ℤ
  windowDuration : PyFloat
  requests : List ℚ
  deriving DecidableEq, Repr

namespace SlidingWindow

variable (R : Rounding)

/-- `SlidingWindow(max_requests, window_duration)`: an empty log. -/
def init (maxRequests : ℤ) (windowDuration : PyFloat) : SlidingWindow :=
  ⟨maxRequests, windowDuration, []⟩

/-- The pruning loop shared by `try_acquire` and `current_requests`: it pops while
`now - self.requests[0] > self.window_duration`. -/
def prune (w : SlidingWindow) (now : ℚ) : SlidingWindow :=
  { w with requests := w.requests.dropWhile fun e =>
      w.windowDuration.lt (PyFloat.sub R (.num now) (.num e)) }

/-- `try_acquire()` at clock reading `now`. -/
def tryAcquire (w : SlidingWindow) (now : ℚ) : Bool × SlidingWindow :=
  let w := w.prune R now
  if (w.requests.length : ℤ) < w.maxRequests then (true, { w with requests := w.requests ++ [now] })
  else (false, w)

/-- `current_requests()` at clock reading `now`: it prunes too. -/
def currentRequests (w : SlidingWindow) (now : ℚ) : ℤ × SlidingWindow :=
  let w := w.prune R now
  (w.requests.length, w)

/-! ### Calls and runs -/

/-- One call on a window, at clock reading `now`. -/
inductive Call where
  | tryAcquire (now : ℚ)
  | currentRequests (now : ℚ)
  deriving DecidableEq, Repr

/-- The clock reading a call is made at. -/
def Call.now : Call → ℚ
  | .tryAcquire now => now
  | .currentRequests now => now

def Call.isTryAcquire : Call → Bool
  | .tryAcquire _ => true
  | .currentRequests _ => false

/-- One call's effect on the window. -/
def step (w : SlidingWindow) : Call → SlidingWindow
  | .tryAcquire now => (w.tryAcquire R now).2
  | .currentRequests now => (w.currentRequests R now).2

/-- A run: the calls in the order the lock admitted them. -/
def run (w : SlidingWindow) (cs : List Call) : SlidingWindow := cs.foldl (step R) w

/-- The reading a call added to the log: `now` when `try_acquire` returned `True`. -/
def grantOf (w : SlidingWindow) : Call → List ℚ
  | .tryAcquire now => if (w.tryAcquire R now).1 then [now] else []
  | .currentRequests _ => []

/-- The readings of the granted `try_acquire` calls of a run, in order. -/
def grants : SlidingWindow → List Call → List ℚ
  | _, [] => []
  | w, c :: cs => w.grantOf R c ++ grants (w.step R c) cs

/-- What the `try_acquire` calls of a run returned, in order. -/
def acquireResults : SlidingWindow → List Call → List Bool
  | _, [] => []
  | w, .tryAcquire now :: cs =>
    (w.tryAcquire R now).1 :: acquireResults (w.step R (.tryAcquire now)) cs
  | w, .currentRequests now :: cs => acquireResults (w.step R (.currentRequests now)) cs

@[simp] theorem run_nil (w : SlidingWindow) : w.run R [] = w := rfl

@[simp] theorem run_cons (w : SlidingWindow) (c : Call) (cs : List Call) :
    w.run R (c :: cs) = (w.step R c).run R cs := rfl

@[simp] theorem prune_maxRequests (w : SlidingWindow) (now : ℚ) :
    (w.prune R now).maxRequests = w.maxRequests := rfl

@[simp] theorem prune_windowDuration (w : SlidingWindow) (now : ℚ) :
    (w.prune R now).windowDuration = w.windowDuration := rfl

theorem tryAcquire_eq (w : SlidingWindow) (now : ℚ) :
    w.tryAcquire R now =
      if ((w.prune R now).requests.length : ℤ) < w.maxRequests then
        (true, { w.prune R now with requests := (w.prune R now).requests ++ [now] })
      else (false, w.prune R now) := rfl

@[simp] theorem tryAcquire_fst (w : SlidingWindow) (now : ℚ) :
    (w.tryAcquire R now).1 = decide (((w.prune R now).requests.length : ℤ) < w.maxRequests) := by
  rw [tryAcquire_eq]; split_ifs with h <;> simp [h]

theorem tryAcquire_requests (w : SlidingWindow) (now : ℚ) :
    (w.tryAcquire R now).2.requests =
      (w.prune R now).requests ++ (w.grantOf R (.tryAcquire now)) := by
  by_cases h : ((w.prune R now).requests.length : ℤ) < w.maxRequests <;>
    simp [tryAcquire_eq, grantOf, h]

@[simp] theorem step_maxRequests (w : SlidingWindow) (c : Call) :
    (w.step R c).maxRequests = w.maxRequests := by
  cases c with
  | tryAcquire now => rw [step, tryAcquire_eq]; split_ifs <;> rfl
  | currentRequests now => rfl

@[simp] theorem step_windowDuration (w : SlidingWindow) (c : Call) :
    (w.step R c).windowDuration = w.windowDuration := by
  cases c with
  | tryAcquire now => rw [step, tryAcquire_eq]; split_ifs <;> rfl
  | currentRequests now => rfl

@[simp] theorem currentRequests_fst (w : SlidingWindow) (now : ℚ) :
    (w.currentRequests R now).1 = (w.prune R now).requests.length := rfl

@[simp] theorem run_maxRequests (w : SlidingWindow) (cs : List Call) :
    (w.run R cs).maxRequests = w.maxRequests := by
  induction cs generalizing w <;> simp [*]

@[simp] theorem run_windowDuration (w : SlidingWindow) (cs : List Call) :
    (w.run R cs).windowDuration = w.windowDuration := by
  induction cs generalizing w <;> simp [*]

/-- **What one call does to the log**: prune at its reading, then append what it was granted. -/
theorem step_requests (w : SlidingWindow) (c : Call) :
    (w.step R c).requests = (w.prune R c.now).requests ++ w.grantOf R c := by
  cases c with
  | tryAcquire now => exact tryAcquire_requests R w now
  | currentRequests now => simp [step, currentRequests, grantOf, Call.now]

/-! ### Pruning a sorted log -/

theorem expired_of_le (W : PyFloat) {now e e' : ℚ} (he : e ≤ e')
    (h : W.lt (PyFloat.sub R (.num now) (.num e')) = true) :
    W.lt (PyFloat.sub R (.num now) (.num e)) = true :=
  PyFloat.lt_of_lt_of_le h (by simpa using R.float_le_float (by linarith : now - e' ≤ now - e))

theorem expired_of_le_now (W : PyFloat) {now now' e : ℚ} (hnow : now ≤ now')
    (h : W.lt (PyFloat.sub R (.num now) (.num e)) = true) :
    W.lt (PyFloat.sub R (.num now') (.num e)) = true :=
  PyFloat.lt_of_lt_of_le h (by simpa using R.float_le_float (by linarith : now - e ≤ now' - e))

theorem dropWhile_eq_filter {W : PyFloat} (hW : W ≠ .nan) (now : ℚ) {l : List ℚ}
    (hl : l.Sorted (· ≤ ·)) :
    l.dropWhile (fun e => W.lt (PyFloat.sub R (.num now) (.num e))) =
      l.filter (fun e => (PyFloat.sub R (.num now) (.num e)).le W) := by
  have hnot : ∀ e, (PyFloat.sub R (.num now) (.num e)).le W =
      !W.lt (PyFloat.sub R (.num now) (.num e)) := fun e => by
    rw [PyFloat.lt_eq_not_le hW (by simpa using R.float_ne_nan _), Bool.not_not]
  induction l with
  | nil => rfl
  | cons a l ih =>
    rw [List.sorted_cons] at hl
    by_cases ha : W.lt (PyFloat.sub R (.num now) (.num a)) = true
    · rw [List.dropWhile_cons_of_pos (p := fun e => W.lt (PyFloat.sub R (.num now) (.num e))) ha,
        List.filter_cons_of_neg (by rw [hnot, ha]; decide), ih hl.2]
    · rw [List.dropWhile_cons_of_neg (p := fun e => W.lt (PyFloat.sub R (.num now) (.num e))) ha,
        List.filter_cons_of_pos (by rw [hnot]; simpa using ha),
        List.filter_eq_self.mpr]
      intro e he
      rw [hnot]
      simpa using fun h => ha (expired_of_le R W (hl.1 e he) h)

theorem prune_prune (w : SlidingWindow) {now now' : ℚ} (hnow : now ≤ now') :
    (w.prune R now).prune R now' = w.prune R now' := by
  suffices ∀ l : List ℚ,
      ((l.dropWhile fun e => w.windowDuration.lt (PyFloat.sub R (.num now) (.num e))).dropWhile
        fun e => w.windowDuration.lt (PyFloat.sub R (.num now') (.num e))) =
      l.dropWhile fun e => w.windowDuration.lt (PyFloat.sub R (.num now') (.num e)) by
    simp only [prune, this]
  intro l
  induction l with
  | nil => rfl
  | cons e l ih =>
    by_cases he : w.windowDuration.lt (PyFloat.sub R (.num now) (.num e)) = true
    · rw [List.dropWhile_cons_of_pos
          (p := fun e => w.windowDuration.lt (PyFloat.sub R (.num now) (.num e))) he, ih,
        List.dropWhile_cons_of_pos
          (p := fun e => w.windowDuration.lt (PyFloat.sub R (.num now') (.num e)))
          (expired_of_le_now R _ hnow he)]
    · rw [List.dropWhile_cons_of_neg
        (p := fun e => w.windowDuration.lt (PyFloat.sub R (.num now) (.num e))) he]

/-- **The pruning loop keeps exactly the window.** In any rounding, for `window_duration > 0`, on a
log sorted oldest first, the loop shared by `try_acquire` and `current_requests` stops with exactly
the entries `e` with `now - e <= window_duration`, the difference computed as the code computes
it, in their order: a suffix of the log, so still sorted. Pruning at `now` and then at a reading
`now' ≥ now` is pruning at `now'`. -/
theorem prune_keeps_window (w : SlidingWindow) (hW : (PyFloat.num 0).lt w.windowDuration)
    (hsorted : w.requests.Sorted (· ≤ ·)) (now now' : ℚ) (hnow : now ≤ now') :
    (w.prune R now).requests =
        w.requests.filter (fun e => (PyFloat.sub R (.num now) (.num e)).le w.windowDuration) ∧
      (w.prune R now).requests <:+ w.requests ∧
      (w.prune R now).requests.Sorted (· ≤ ·) ∧
      (w.prune R now).prune R now' = w.prune R now' := by
  have hnan : w.windowDuration ≠ .nan := fun h => by simp [h, PyFloat.lt] at hW
  have hsuf : (w.prune R now).requests <:+ w.requests := List.dropWhile_suffix _
  exact ⟨dropWhile_eq_filter R hnan now hsorted, hsuf, hsorted.sublist hsuf.sublist,
    prune_prune R w hnow⟩

theorem prune_keeps_window_half_second :
    (PyFloat.num 0).lt (SlidingWindow.mk 5 (.num 1) [0, 1/2, 1]).windowDuration ∧
      (SlidingWindow.mk 5 (.num 1) [0, 1/2, 1]).requests.Sorted (· ≤ ·) ∧ (3/2 : ℚ) ≤ 2 ∧
      (((SlidingWindow.mk 5 (.num 1) [0, 1/2, 1]).prune .binary64 (3/2)).requests =
          (SlidingWindow.mk 5 (.num 1) [0, 1/2, 1]).requests.filter (fun e =>
            (PyFloat.sub .binary64 (.num (3/2)) (.num e)).le
              (SlidingWindow.mk 5 (.num 1) [0, 1/2, 1]).windowDuration) ∧
        ((SlidingWindow.mk 5 (.num 1) [0, 1/2, 1]).prune .binary64 (3/2)).requests <:+
          (SlidingWindow.mk 5 (.num 1) [0, 1/2, 1]).requests ∧
        ((SlidingWindow.mk 5 (.num 1) [0, 1/2, 1]).prune .binary64 (3/2)).requests.Sorted (· ≤ ·) ∧
        ((SlidingWindow.mk 5 (.num 1) [0, 1/2, 1]).prune .binary64 (3/2)).prune .binary64 2 =
          (SlidingWindow.mk 5 (.num 1) [0, 1/2, 1]).prune .binary64 2) := by
  have hsorted : (SlidingWindow.mk 5 (.num 1) [0, 1/2, 1]).requests.Sorted (· ≤ ·) := by
    simp; norm_num
  exact ⟨by decide, hsorted, by norm_num,
    prune_keeps_window .binary64 _ (by decide) hsorted (3/2) 2 (by norm_num)⟩

/-! ### Many requests at one instant -/

theorem tryAcquire_same_instant {M : ℤ} {W : PyFloat} (hW : (PyFloat.num 0).le W) (t : ℚ)
    (j : ℕ) :
    (SlidingWindow.mk M W (List.replicate j t)).tryAcquire R t =
      (decide ((j : ℤ) < M), ⟨M, W, List.replicate (if (j : ℤ) < M then j + 1 else j) t⟩) := by
  have hnan : W ≠ .nan := fun h => by simp [h, PyFloat.le] at hW
  have hkeep : W.lt (PyFloat.sub R (.num t) (.num t)) = false := by
    rw [PyFloat.sub_num_num, sub_self, Rounding.float_zero,
      PyFloat.lt_eq_not_le hnan (by simp), hW, Bool.not_true]
  have hp : (SlidingWindow.mk M W (List.replicate j t)).prune R t = ⟨M, W, List.replicate j t⟩ := by
    simp only [prune, List.dropWhile_replicate, hkeep, Bool.false_eq_true, ite_false]
  rw [tryAcquire_eq, hp]
  by_cases hj : (j : ℤ) < M <;> simp [hj, List.replicate_succ']

theorem map_range'_of_le {M : ℤ} {j : ℕ} (hj : M ≤ j) (k : ℕ) :
    (List.range' j k).map (fun i : ℕ => decide ((i : ℤ) < M)) = List.replicate k false := by
  induction k generalizing j with
  | zero => rfl
  | succ k ih =>
    rw [List.range'_succ, List.map_cons, ih (by omega), decide_eq_false (by omega)]
    rfl

theorem run_same_instant (M : ℤ) {W : PyFloat} (hW : (PyFloat.num 0).le W) (t : ℚ) (k j : ℕ) :
    acquireResults R ⟨M, W, List.replicate j t⟩ (List.replicate k (.tryAcquire t)) =
        (List.range' j k).map (fun i : ℕ => decide ((i : ℤ) < M)) ∧
      ∃ j', (SlidingWindow.mk M W (List.replicate j t)).run R (List.replicate k (.tryAcquire t)) =
        ⟨M, W, List.replicate j' t⟩ := by
  induction k generalizing j with
  | zero => exact ⟨rfl, j, rfl⟩
  | succ k ih =>
    rw [List.replicate_succ, acquireResults, run_cons, step, tryAcquire_same_instant R hW,
      List.range'_succ, List.map_cons]
    by_cases hj : (j : ℤ) < M
    · simp only [hj, if_true]
      exact ⟨congrArg _ (ih (j + 1)).1, (ih (j + 1)).2⟩
    · simp only [hj, if_false]
      refine ⟨congrArg _ ?_, (ih j).2⟩
      rw [(ih j).1, map_range'_of_le (not_lt.mp hj), map_range'_of_le (by omega)]

/-- **A burst at one instant, then recovery.** In any rounding, for a window built with
`window_duration ≥ 0`, `k` calls to `try_acquire()` at one reading `t` return `True` exactly for
the first `max_requests` of them, and a call at a reading `t'` with `t' - t > window_duration`, as
the code computes it, finds the window empty. -/
theorem same_instant_burst (M : ℤ) (W : PyFloat) (t t' : ℚ) (hW : (PyFloat.num 0).le W) (k : ℕ)
    (ht' : W.lt (PyFloat.sub R (.num t') (.num t)) = true) :
    acquireResults R (init M W) (List.replicate k (.tryAcquire t)) =
        (List.range k).map (fun i : ℕ => decide ((i : ℤ) < M)) ∧
      (((init M W).run R (List.replicate k (.tryAcquire t))).tryAcquire R t').1 =
        decide (0 < M) := by
  obtain ⟨hres, j', hrun⟩ := run_same_instant R M hW t k 0
  refine ⟨by rw [List.range_eq_range']; exact hres, ?_⟩
  have ht'' : W.lt (R.float (t' - t)) = true := by simpa using ht'
  rw [init, show ([] : List ℚ) = List.replicate 0 t from rfl, hrun]
  simp [prune, List.dropWhile_replicate, ht'']

theorem same_instant_burst_five_per_second :
    (PyFloat.num 0).le (.num 1) ∧ (PyFloat.num 1).lt (PyFloat.sub .binary64 (.num (3/2)) (.num 0)) ∧
      (acquireResults .binary64 (init 5 (.num 1)) (List.replicate 6 (.tryAcquire 0)) =
          (List.range 6).map (fun i : ℕ => decide ((i : ℤ) < 5)) ∧
        (((init 5 (.num 1)).run .binary64 (List.replicate 6 (.tryAcquire 0))).tryAcquire .binary64
          (3/2)).1 = decide ((0 : ℤ) < 5)) := by
  have ht' : (PyFloat.num 1).lt (PyFloat.sub .binary64 (.num (3/2)) (.num 0)) := by
    with_unfolding_all decide
  exact ⟨by decide, ht', same_instant_burst .binary64 5 (.num 1) 0 (3/2) (by decide) 6 ht'⟩

end SlidingWindow

end NornRpc
