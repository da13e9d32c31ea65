import NornRpc.SlidingWindow.Basic

/-!
# The log is the window of the grant history

Over runs at nondecreasing clock readings, the sliding window is a faithful implementation of its
specification: at every call at reading `now`, the pruned log is, in order, the readings `e` of the
earlier granted `try_acquire` calls with `now - e <= window_duration`, the difference rounded as
the code rounds it (`run_sim`, `prune_sim`). That is not the interval `[now - W, now]`: `1.1 - 0.1`
rounds to `1.0`, so a window of one second still counts a grant at `0.1` at `1.1`
(`window_refines_counterexample`). Rounding only ever keeps more, so when `W` is a double every
closed interval `[t - W, t]` still holds at most `max_requests` grants.

The relation `Sim w h t` says that the log of `w` is the history of grants `h` filtered by the
window of the last reading `t`, with `h` sorted and no later than `t`. The empty window is related
to the empty history at every reading (`sim_init`); a call at a reading `≥ t` keeps the relation
(`step_sim`): its pruning is a filter because the log is sorted (`dropWhile_eq_filter`), and the
filter of the last reading is absorbed by that of a later one (`prune_sim`).

The consequences: `try_acquire` answers as the abstract machine `specResults` over the history
does (`acquireResults_eq_spec`), which ignores `current_requests`, so inserting such calls changes
no `try_acquire` result; and every closed interval `[t - W, t]` holds at most `max_requests` grants
(`bounded_step`: a grant at `now` finds fewer than `max_requests` grants in the rounded window at
`now`, and every earlier grant in an interval `[t - W, t] ∋ now` lies in that window).
-/

namespace NornRpc.SlidingWindow

variable (R : Rounding)

/-- The readings `e` of `h` the code keeps at `now`: `now - e <= W`, the difference rounded. -/
def inWindow (W : PyFloat) (now : ℚ) (h : List ℚ) : List ℚ :=
  h.filter fun e => (PyFloat.sub R (.num now) (.num e)).le W

/-- The readings of `h` in the closed interval `[s - ω, s]`. -/
def inInterval (ω s : ℚ) (h : List ℚ) : List ℚ := h.filter fun e => s - ω ≤ e ∧ e ≤ s

/-! ### The abstract window -/

/-- The abstract admission test over a history of grants: fewer than `M` in the window at `now`. -/
def admits (M : ℤ) (W : PyFloat) (h : List ℚ) (now : ℚ) : Bool :=
  ((inWindow R W now h).length : ℤ) < M

/-- The answers of the abstract window to the `try_acquire` calls of a run. Its state is the
history of grants; `current_requests` leaves it alone. -/
def specResults (M : ℤ) (W : PyFloat) : List ℚ → List Call → List Bool
  | _, [] => []
  | h, .tryAcquire now :: cs =>
    admits R M W h now :: specResults M W (if admits R M W h now then h ++ [now] else h) cs
  | h, .currentRequests _ :: cs => specResults M W h cs

theorem specResults_filter (M : ℤ) (W : PyFloat) (h : List ℚ) (cs : List Call) :
    specResults R M W h (cs.filter Call.isTryAcquire) = specResults R M W h cs := by
  induction cs generalizing h with
  | nil => rfl
  | cons c cs ih =>
    cases c with
    | tryAcquire now => simp [Call.isTryAcquire, specResults, ih]
    | currentRequests now => simp [Call.isTryAcquire, specResults, ih]

/-! ### The simulation -/

/-- The log of `w` is the history `h` within the window of the last reading `t`. -/
structure Sim (w : SlidingWindow) (h : List ℚ) (t : ℚ) : Prop where
  log_eq : w.requests = inWindow R w.windowDuration t h
  sorted : h.Sorted (· ≤ ·)
  le_last : ∀ e ∈ h, e ≤ t

theorem sim_init (M : ℤ) (W : PyFloat) (t : ℚ) : Sim R (init M W) [] t :=
  ⟨rfl, List.sorted_nil, by simp⟩

theorem prune_sim {w : SlidingWindow} {h : List ℚ} {t : ℚ} (hs : Sim R w h t)
    (hW : w.windowDuration ≠ .nan) {now : ℚ} (ht : t ≤ now) :
    (w.prune R now).requests = inWindow R w.windowDuration now h := by
  rw [prune]
  dsimp only
  rw [hs.log_eq]
  unfold inWindow
  rw [dropWhile_eq_filter R hW _ (hs.sorted.filter _), List.filter_filter]
  refine List.filter_congr fun e _ => ?_
  -- what is kept at `now` was kept at `t`
  cases hkeep : (PyFloat.sub R (.num now) (.num e)).le w.windowDuration
  · rfl
  · rw [Bool.true_and]
    exact PyFloat.le_trans' (b := PyFloat.sub R (.num now) (.num e))
      (by simpa using R.float_le_float (by linarith : t - e ≤ now - e)) hkeep

theorem grantOf_cases (w : SlidingWindow) (c : Call) :
    w.grantOf R c = [] ∨ w.grantOf R c = [c.now] := by
  cases c with
  | tryAcquire now => simp only [grantOf]; split_ifs <;> simp [Call.now]
  | currentRequests now => exact .inl rfl

/-- **One call keeps the simulation**, its reading becoming the last. -/
theorem step_sim {w : SlidingWindow} {h : List ℚ} {t : ℚ} (hs : Sim R w h t)
    (hW : (PyFloat.num 0).le w.windowDuration) {c : Call} (ht : t ≤ c.now) :
    Sim R (w.step R c) (h ++ w.grantOf R c) c.now := by
  have hnan : w.windowDuration ≠ .nan := fun h => by simp [h, PyFloat.le] at hW
  have hg : ∀ e ∈ w.grantOf R c, e = c.now := by
    rcases grantOf_cases R w c with hc | hc <;> simp [hc]
  constructor
  · rw [step_requests, prune_sim R hs hnan ht, step_windowDuration, inWindow, inWindow,
      List.filter_append]
    congr 1
    refine (List.filter_eq_self.mpr fun e he => ?_).symm
    simpa [hg e he] using hW
  · refine List.pairwise_append.mpr ⟨hs.sorted, ?_, fun a ha b hb => ?_⟩
    · rcases grantOf_cases R w c with hc | hc <;> simp [hc]
    · rw [hg b hb]; exact (hs.le_last a ha).trans ht
  · intro e he
    rcases List.mem_append.mp he with he | he
    · exact (hs.le_last e he).trans ht
    · exact (hg e he).le

/-- **A run keeps the simulation**: after it, the window is related to the history extended by the
run's grants, at some reading no later than any reading bounding the run's. -/
theorem run_sim {w : SlidingWindow} {h : List ℚ} {t : ℚ} (hs : Sim R w h t)
    (hW : (PyFloat.num 0).le w.windowDuration) {cs : List Call} (hcs : ∀ c ∈ cs, t ≤ c.now)
    (hsorted : (cs.map Call.now).Sorted (· ≤ ·)) {now : ℚ} (ht : t ≤ now)
    (hnow : ∀ c ∈ cs, c.now ≤ now) : ∃ t' ≤ now, Sim R (w.run R cs) (h ++ grants R w cs) t' := by
  induction cs generalizing w h t with
  | nil => exact ⟨t, ht, by simpa [grants] using hs⟩
  | cons c cs ih =>
    rw [List.map_cons, List.sorted_cons] at hsorted
    obtain ⟨t', ht', hs'⟩ := ih (step_sim R hs hW (hcs c (by simp))) (by simpa using hW)
      (fun c' h => hsorted.1 _ (List.mem_map_of_mem _ h)) hsorted.2 (hnow c (by simp))
      fun c' h => hnow c' (by simp [h])
    exact ⟨t', ht', by simpa [grants] using hs'⟩

theorem acquireResults_eq_spec {w : SlidingWindow} {h : List ℚ} {t : ℚ} (hs : Sim R w h t)
    (hW : (PyFloat.num 0).le w.windowDuration) {cs : List Call} (hcs : ∀ c ∈ cs, t ≤ c.now)
    (hsorted : (cs.map Call.now).Sorted (· ≤ ·)) :
    acquireResults R w cs = specResults R w.maxRequests w.windowDuration h cs := by
  have hnan : w.windowDuration ≠ .nan := fun h => by simp [h, PyFloat.le] at hW
  induction cs generalizing w h t with
  | nil => rfl
  | cons c cs ih =>
    rw [List.map_cons, List.sorted_cons] at hsorted
    have hs' := step_sim R hs hW (hcs c (by simp))
    have ih' := ih hs' (by simpa using hW) (fun c' h => hsorted.1 _ (List.mem_map_of_mem _ h))
      hsorted.2 (by simpa using hnan)
    cases c with
    | tryAcquire now =>
      have hadm : (w.tryAcquire R now).1 = admits R w.maxRequests w.windowDuration h now := by
        rw [tryAcquire_fst, prune_sim R hs hnan (show t ≤ now from hcs _ (List.mem_cons_self _ _)),
          admits]
      rw [acquireResults, specResults, ih', step_maxRequests, step_windowDuration, ← hadm]
      congr 2
      simp only [grantOf]
      split_ifs <;> simp
    | currentRequests now => simpa [acquireResults, specResults, grantOf] using ih'

/-! ### At most `max_requests` grants in any interval -/

/-- Every closed interval `[s - ω, s]` holds at most `M` readings of `h`. -/
def Bounded (M : ℤ) (ω : ℚ) (h : List ℚ) : Prop := ∀ s, ((inInterval ω s h).length : ℤ) ≤ M

theorem inInterval_length_le {ω : ℚ} (hω : R.float ω = .num ω) {now s : ℚ} (hs : now ≤ s)
    (h : List ℚ) :
    (inInterval ω s h).length ≤ (inWindow R (.num ω) now h).length := by
  simp only [inInterval, inWindow, ← List.countP_eq_length_filter]
  refine List.countP_mono_left fun e he hin => ?_
  simp only [decide_eq_true_eq] at hin
  rw [PyFloat.sub_num_num, ← hω]
  exact R.float_le_float (by linarith [hin.1])

theorem bounded_step {M : ℤ} {ω : ℚ} (hω : R.float ω = .num ω) {h : List ℚ} (hb : Bounded M ω h)
    {now : ℚ} (hadm : admits R M (.num ω) h now = true) :
    Bounded M ω (h ++ [now]) := by
  intro s
  simp only [admits, decide_eq_true_eq] at hadm
  by_cases hin : s - ω ≤ now ∧ now ≤ s
  · have := inInterval_length_le R hω hin.2 h
    simp only [inInterval, List.filter_append, List.length_append] at this ⊢
    rw [List.filter_cons_of_pos (by simpa using hin)]
    simp only [List.filter_nil, List.length_singleton, Nat.cast_add, Nat.cast_one]
    omega
  · have := hb s
    simp only [inInterval, List.filter_append, List.length_append] at this ⊢
    rw [List.filter_cons_of_neg (by simpa using hin)]
    simpa using this

theorem run_bounded {w : SlidingWindow} {h : List ℚ} {t ω : ℚ} (hs : Sim R w h t)
    (hωW : w.windowDuration = .num ω) (hω : R.float ω = .num ω)
    (hb : Bounded w.maxRequests ω h) (hW : 0 ≤ ω) {cs : List Call}
    (hcs : ∀ c ∈ cs, t ≤ c.now) (hsorted : (cs.map Call.now).Sorted (· ≤ ·)) :
    Bounded w.maxRequests ω (h ++ grants R w cs) := by
  have hW' : (PyFloat.num 0).le w.windowDuration := by simpa [hωW] using hW
  induction cs generalizing w h t with
  | nil => simpa [grants] using hb
  | cons c cs ih =>
    rw [List.map_cons, List.sorted_cons] at hsorted
    have hb' : Bounded w.maxRequests ω (h ++ w.grantOf R c) := by
      cases c with
      | tryAcquire now =>
        have ht : t ≤ now := hcs _ (List.mem_cons_self _ _)
        simp only [grantOf]
        split_ifs with hg
        · refine bounded_step R hω hb ?_
          rw [← hωW, ← hg, tryAcquire_fst, prune_sim R hs (by simp [hωW]) ht, admits]
        · rwa [List.append_nil]
      | currentRequests now => rwa [grantOf, List.append_nil]
    have := ih (step_sim R hs hW' (hcs c (List.mem_cons_self _ _))) (by simpa using hωW)
      (by rwa [step_maxRequests]) (fun c' h => hsorted.1 _ (List.mem_map_of_mem _ h)) hsorted.2
      (by simpa using hW')
    rwa [step_maxRequests, List.append_assoc] at this

/-! ### The refinement -/

theorem exists_le_readings (cs : List Call) : ∃ t0, ∀ c ∈ cs, t0 ≤ c.now := by
  induction cs with
  | nil => exact ⟨0, by simp⟩
  | cons c cs ih =>
    obtain ⟨t, ht⟩ := ih
    exact ⟨min c.now t, List.forall_mem_cons.mpr
      ⟨min_le_left _ _, fun c' h => (min_le_right _ _).trans (ht c' h)⟩⟩

/-- **The sliding window refines its specification.** In any rounding, for a window built with
`max_requests ≥ 0` and `window_duration ≥ 0`, and any run of `try_acquire` and
`current_requests` calls at nondecreasing readings: at a next call at any reading `now` no earlier
than the run's, the pruned log is, in order, the run's grants `e` with `now - e <= W`, the
difference rounded as the code rounds it; `try_acquire` returns whether fewer than `max_requests`
of them are there, and `current_requests` their number. The run's `try_acquire` results are those
of the run without its `current_requests` calls, and when `W` is a double every closed interval
`[t - W, t]` holds at most `max_requests` grants. -/
theorem window_refines (M : ℤ) (W : PyFloat) (hM : 0 ≤ M) (hW : (PyFloat.num 0).le W)
    (cs : List Call) (hsorted : (cs.map Call.now).Sorted (· ≤ ·)) :
    (∀ now, (∀ c ∈ cs, c.now ≤ now) →
      (((init M W).run R cs).prune R now).requests = inWindow R W now (grants R (init M W) cs) ∧
      (((init M W).run R cs).tryAcquire R now).1 =
        decide (((inWindow R W now (grants R (init M W) cs)).length : ℤ) < M) ∧
      (((init M W).run R cs).currentRequests R now).1 =
        (inWindow R W now (grants R (init M W) cs)).length) ∧
    acquireResults R (init M W) cs = acquireResults R (init M W) (cs.filter Call.isTryAcquire) ∧
    ∀ ω, W = .num ω → R.float ω = .num ω →
      ∀ t, ((inInterval ω t (grants R (init M W) cs)).length : ℤ) ≤ M := by
  -- every run starts related to the empty history at its first reading
  obtain ⟨t0, ht0⟩ := exists_le_readings cs
  have hnan : W ≠ .nan := fun h => by simp [h, PyFloat.le] at hW
  have hsortedF : ((cs.filter Call.isTryAcquire).map Call.now).Sorted (· ≤ ·) :=
    hsorted.sublist ((List.filter_sublist _).map _)
  refine ⟨fun now hnow => ?_, ?_, fun ω hωW hω => ?_⟩
  · obtain ⟨t', ht', hs⟩ := run_sim R (sim_init R M W (min t0 now)) hW
      (fun c h => (min_le_left _ _).trans (ht0 c h)) hsorted (min_le_right _ _) hnow
    have hp := prune_sim R hs (by simpa using hnan) ht'
    rw [run_windowDuration, List.nil_append] at hp
    refine ⟨hp, ?_, by rw [currentRequests_fst, hp]; rfl⟩
    rw [tryAcquire_fst, hp, run_maxRequests]
    rfl
  · rw [acquireResults_eq_spec R (sim_init R M W t0) hW ht0 hsorted,
      acquireResults_eq_spec R (sim_init R M W t0) hW
        (fun c h => ht0 c (List.mem_of_mem_filter h)) hsortedF, specResults_filter]
  · subst hωW
    simpa using run_bounded R (sim_init R M (.num ω) t0) rfl hω
      (fun s => by simpa [inInterval] using hM) (by simpa using hW) ht0 hsorted

/-- **Rounding counts a grant just outside the interval.** A window of one request per second
grants a call at `0.1`; at `1.1` the code computes `1.1 - 0.1` as `1.0`, keeps that grant and
refuses, though no grant lies in `[1.1 - 1, 1.1]`. -/
theorem window_refines_counterexample :
    acquireResults .binary64 (init 1 (.num 1))
        [.tryAcquire (roundGrid 0.1), .tryAcquire (roundGrid 1.1)] = [true, false] ∧
      inInterval 1 (roundGrid 1.1)
        (grants .binary64 (init 1 (.num 1)) [.tryAcquire (roundGrid 0.1)]) = [] := by
  with_unfolding_all decide

theorem window_refines_five_per_second :
    (0 : ℤ) ≤ 2 ∧ (PyFloat.num 0).le (.num 1) ∧
      ([Call.tryAcquire 0, .tryAcquire (1/2), .currentRequests 1, .tryAcquire 1].map
        Call.now).Sorted (· ≤ ·) ∧
      ((∀ now, (∀ c ∈ [Call.tryAcquire 0, .tryAcquire (1/2), .currentRequests 1, .tryAcquire 1],
          c.now ≤ now) →
        (((init 2 (.num 1)).run .binary64 [.tryAcquire 0, .tryAcquire (1/2), .currentRequests 1,
          .tryAcquire 1]).prune .binary64 now).requests = inWindow .binary64 (.num 1) now
            (grants .binary64 (init 2 (.num 1))
              [.tryAcquire 0, .tryAcquire (1/2), .currentRequests 1, .tryAcquire 1]) ∧
        (((init 2 (.num 1)).run .binary64 [.tryAcquire 0, .tryAcquire (1/2), .currentRequests 1,
          .tryAcquire 1]).tryAcquire .binary64 now).1 =
            decide (((inWindow .binary64 (.num 1) now (grants .binary64 (init 2 (.num 1))
              [.tryAcquire 0, .tryAcquire (1/2), .currentRequests 1, .tryAcquire 1])).length : ℤ) <
                2) ∧
        (((init 2 (.num 1)).run .binary64 [.tryAcquire 0, .tryAcquire (1/2), .currentRequests 1,
          .tryAcquire 1]).currentRequests .binary64 now).1 =
            (inWindow .binary64 (.num 1) now (grants .binary64 (init 2 (.num 1))
              [.tryAcquire 0, .tryAcquire (1/2), .currentRequests 1, .tryAcquire 1])).length) ∧
      acquireResults .binary64 (init 2 (.num 1))
          [.tryAcquire 0, .tryAcquire (1/2), .currentRequests 1, .tryAcquire 1] =
        acquireResults .binary64 (init 2 (.num 1))
          ([.tryAcquire 0, .tryAcquire (1/2), .currentRequests 1, .tryAcquire 1].filter
            Call.isTryAcquire) ∧
      ∀ ω, PyFloat.num 1 = .num ω → Rounding.binary64.float ω = .num ω →
        ∀ t, ((inInterval ω t (grants .binary64 (init 2 (.num 1))
          [.tryAcquire 0, .tryAcquire (1/2), .currentRequests 1, .tryAcquire 1])).length : ℤ) ≤
            2) := by
  have hsorted : ([Call.tryAcquire 0, .tryAcquire (1/2), .currentRequests 1, .tryAcquire 1].map
      Call.now).Sorted (· ≤ ·) := by
    simp [Call.now]; norm_num
  exact ⟨by norm_num, by decide, hsorted,
    window_refines .binary64 2 (.num 1) (by norm_num) (by decide) _ hsorted⟩

end NornRpc.SlidingWindow
