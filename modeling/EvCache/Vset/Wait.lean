import Mathlib

set_option autoImplicit false

/-!
# The adaptive prime-probe wait

`vset` primes a colour's eviction sets, waits `wait_us` and probes them. The user sets the wait
with `-w` (`vset.c:389-400`, default 7 ms); unless `fix_wait` holds, two loops adapt it from the
smoothed eviction rates of each scan: the `--live` display of `vset` (`vset.c:603-634`), over
colours, and the LCAS monitor `monitor_eviction_rate_multi` (`vset_ops.c:2583-2670`), over
sockets. Both shrink the wait by 1 ms after two saturated scans in a row, and both comment that
one low-contention scan is meant to bring the user's wait back.

## Model

A scan is the list of EWMA values it ends with, as rationals: one per colour for `--live`, and
one per socket for the monitor, `none` for a socket without a helper pair (printed `N/A` and
counted neither hot nor cold). The thresholds `0.95` and `0.20` are the rationals. `ctx.wait_us`
is a `u32` into which `vset` copies the `u64` value of `-w`, hence `% 2 ^ 32`; the monitor's
`wait_time_us` is a `u64` and is only decreased above 1 ms. The counters stay below `3` on every
reachable state but `consec_expand_low`, which nothing reads, so their `u32` wrap is left out.
A run of a loop over a list of scans is a left fold from the state before the loop.

## Main definitions

* `EvCache.Vset.liveAdapt`, `EvCache.Vset.liveRun` — the adaptation of `vset --live`.
* `EvCache.Vset.monitorAdapt`, `EvCache.Vset.monitorRun` — the adaptation of
  `monitor_eviction_rate_multi`.
* `EvCache.Vset.WaitBound` — the wait is in `(0, W]`, a multiple of 1 ms below `W`.

## Main results

* `EvCache.Vset.liveRun_waitBound`, `EvCache.Vset.monitorRun_inv` — the bound holds on every run.
* `EvCache.Vset.liveRun_shrink_after_two` — `--live` shrinks the wait only after two saturated
  scans in a row.
* `EvCache.Vset.liveRun_saturated` — yet under saturation `--live` swings between `W` and
  `W - 1000`: its branch `else if (consec_shrink_high)` sets the wait back to `-w` on the first
  saturated scan of each pair, where the unused `consec_expand_low` was meant.
* `EvCache.Vset.monitorRun_reset_of_idle` — the monitor returns to `W` only on an idle scan.
* `EvCache.Vset.foldl_adapt_saturated` — an adaptation that shrinks on the second saturated
  scan of a pair shrinks the wait once every two saturated scans.
* `EvCache.Vset.monitorRun_saturated` — a run of saturated scans shrinks the monitor's wait by
  1 ms every second scan, down to at most 1 ms.
* `EvCache.Vset.monitorRun_shrink_across_idle` — an idle scan keeps the monitor's count of
  saturated scans, so two saturated scans with idle ones between them shrink the wait.

## References

* `src/src/vset.c`, lines 389-400 (`-w`), 558-634 (`--live`);
  `src/src/vset_ops.c`, lines 39-40 and 2583-2670 (`monitor_eviction_rate_multi`).
-/

namespace EvCache.Vset

/-! ## The `--live` loop -/

/-- `n_colors_hot` (`vset.c:610-614`): the colours at an EWMA of at least `0.95`. -/
def nColorsHot (ewma : List ℚ) : ℕ := ewma.countP fun e => decide (0.95 ≤ e)

/-- `n_colors_cold` (`vset.c:610-614`): the other colours at an EWMA of at most `0.20`. -/
def nColorsCold (ewma : List ℚ) : ℕ :=
  ewma.countP fun e => !decide (0.95 ≤ e) && decide (e ≤ 0.20)

/-- The state the `--live` loop carries from scan to scan. -/
structure LiveState where
  wait_us : ℕ
  consec_shrink_high : ℕ
  consec_expand_low : ℕ
  deriving DecidableEq, Repr

/-- One adaptation of the `--live` loop (`vset.c:615-634`) after a scan ending at `ewma`;
`wait_time_us` is the value of `-w`. -/
def liveAdapt (fix_wait : Bool) (wait_time_us : ℕ) (s : LiveState) (ewma : List ℚ) :
    LiveState :=
  if fix_wait = false ∧ 1000 < s.wait_us then
    let consec_shrink_high := if 2 ≤ nColorsHot ewma then s.consec_shrink_high + 1 else 0
    let consec_expand_low :=
      if nColorsCold ewma = ewma.length then s.consec_expand_low + 1 else 0
    if 2 ≤ consec_shrink_high then ⟨s.wait_us - 1000, 0, consec_expand_low⟩
    -- "once is enough to trigger jumping back to org val", on the count of saturated scans
    else if consec_shrink_high ≠ 0 then
      ⟨wait_time_us % 2 ^ 32, consec_shrink_high, consec_expand_low⟩
    else ⟨s.wait_us, consec_shrink_high, consec_expand_low⟩
  else s

/-- The state before the loop: `ctx.wait_us = scan_wait_us`, the `u32` copy of `-w`. -/
def liveStart (wait_time_us : ℕ) : LiveState := ⟨wait_time_us % 2 ^ 32, 0, 0⟩

/-- The `--live` loop over the scans `scans`. -/
def liveRun (fix_wait : Bool) (wait_time_us : ℕ) (scans : List (List ℚ)) : LiveState :=
  scans.foldl (liveAdapt fix_wait wait_time_us) (liveStart wait_time_us)

lemma liveRun_append (fix_wait : Bool) (wait_time_us : ℕ) (scans : List (List ℚ))
    (ewma : List ℚ) :
    liveRun fix_wait wait_time_us (scans ++ [ewma]) =
      liveAdapt fix_wait wait_time_us (liveRun fix_wait wait_time_us scans) ewma := by
  simp [liveRun]

/-! ### What one adaptation does -/

section LiveStep

variable {fix_wait : Bool} (wait_time_us : ℕ) (s : LiveState) (ewma : List ℚ)

/-- With `fix_wait`, or a wait of at most 1 ms, nothing adapts. -/
lemma liveAdapt_of_frozen (h : fix_wait = true ∨ s.wait_us ≤ 1000) :
    liveAdapt fix_wait wait_time_us s ewma = s := by
  have hg : ¬(fix_wait = false ∧ 1000 < s.wait_us) := by
    rcases h with rfl | h <;> simp; omega
  simp only [liveAdapt, if_neg hg]

/-- A scan with fewer than two hot colours clears the count and keeps the wait. -/
lemma liveAdapt_of_unsaturated (hw : 1000 < s.wait_us) (hh : nColorsHot ewma < 2) :
    (liveAdapt false wait_time_us s ewma).wait_us = s.wait_us ∧
      (liveAdapt false wait_time_us s ewma).consec_shrink_high = 0 := by
  unfold liveAdapt
  rw [if_pos ⟨rfl, hw⟩]
  dsimp only
  rw [if_neg (show ¬2 ≤ nColorsHot ewma by omega)]
  simp

/-- A saturated scan after an unsaturated one sets the wait to `-w`; a second one in a row
shrinks it by 1 ms. -/
lemma liveAdapt_of_saturated (hw : 1000 < s.wait_us) (hh : 2 ≤ nColorsHot ewma) :
    (liveAdapt false wait_time_us s ewma).wait_us =
        (if s.consec_shrink_high = 0 then wait_time_us % 2 ^ 32 else s.wait_us - 1000) ∧
      (liveAdapt false wait_time_us s ewma).consec_shrink_high =
        (if s.consec_shrink_high = 0 then 1 else 0) := by
  unfold liveAdapt
  rw [if_pos ⟨rfl, hw⟩]
  dsimp only
  rw [if_pos hh]
  by_cases hc : s.consec_shrink_high = 0
  · simp [hc]
  · simp [hc, show 2 ≤ s.consec_shrink_high + 1 by omega]

end LiveStep

/-- With `fix_wait` the `--live` loop never adapts. -/
lemma liveRun_fix_wait (wait_time_us : ℕ) (scans : List (List ℚ)) :
    liveRun true wait_time_us scans = liveStart wait_time_us := by
  induction scans using List.reverseRecOn with
  | nil => rfl
  | append_singleton scans ewma ih =>
    rw [liveRun_append, ih, liveAdapt_of_frozen wait_time_us _ ewma (.inl rfl)]

/-! ### Bounds on the wait -/

/-- **The wait is in `(0, W]`, a multiple of 1 ms below `W`.** -/
structure WaitBound (W w : ℕ) : Prop where
  pos : 0 < w
  le : w ≤ W
  dvd : 1000 ∣ W - w

lemma WaitBound.self {W : ℕ} (h : 0 < W) : WaitBound W W := ⟨h, le_rfl, by simp⟩

lemma WaitBound.shrink {W w : ℕ} (hb : WaitBound W w) (h : 1000 < w) :
    WaitBound W (w - 1000) where
  pos := by omega
  le := by have := hb.le; omega
  dvd := by
    have hsub : W - (w - 1000) = (W - w) + 1000 := by have := hb.le; omega
    rw [hsub]
    exact Nat.dvd_add hb.dvd (dvd_refl 1000)

/-- One adaptation of `--live` keeps the bound. -/
lemma liveAdapt_waitBound {fix_wait : Bool} {wait_time_us : ℕ} {s : LiveState}
    (ewma : List ℚ) (hb : WaitBound (wait_time_us % 2 ^ 32) s.wait_us) :
    WaitBound (wait_time_us % 2 ^ 32) (liveAdapt fix_wait wait_time_us s ewma).wait_us := by
  by_cases hg : fix_wait = false ∧ 1000 < s.wait_us
  · obtain ⟨rfl, hw⟩ := hg
    by_cases hh : 2 ≤ nColorsHot ewma
    · rw [(liveAdapt_of_saturated wait_time_us s ewma hw hh).1]
      split_ifs
      · exact WaitBound.self (by have := hb.le; omega)
      · exact hb.shrink hw
    · rw [(liveAdapt_of_unsaturated wait_time_us s ewma hw (by omega)).1]
      exact hb
  · rw [liveAdapt_of_frozen wait_time_us s ewma (by cases fix_wait <;> simp_all)]
    exact hb

/-- **Every run of `--live` keeps the wait in `(0, W]`, a multiple of 1 ms below `W`.** -/
theorem liveRun_waitBound (fix_wait : Bool) {wait_time_us : ℕ} (hW : 0 < wait_time_us % 2 ^ 32)
    (scans : List (List ℚ)) :
    WaitBound (wait_time_us % 2 ^ 32) (liveRun fix_wait wait_time_us scans).wait_us := by
  induction scans using List.reverseRecOn with
  | nil => exact WaitBound.self hW
  | append_singleton scans ewma ih =>
    rw [liveRun_append]
    exact liveAdapt_waitBound ewma ih

/-! ### When `--live` shrinks the wait -/

/-- **The count of saturated scans.** After every run of `--live` the count is at most one, and
when it is one, the wait is above 1 ms and the last scan was saturated.

**Proof sketch.** Reverse induction on the scans. The count becomes one only on a saturated scan
after an unsaturated one, which sets the wait to `-w`, above the wait before and so above 1 ms;
a wait of at most 1 ms freezes a count that is then zero. -/
lemma liveRun_count (fix_wait : Bool) {wait_time_us : ℕ} (hW : 0 < wait_time_us % 2 ^ 32)
    (scans : List (List ℚ)) :
    (liveRun fix_wait wait_time_us scans).consec_shrink_high ≤ 1 ∧
      ((liveRun fix_wait wait_time_us scans).consec_shrink_high = 1 →
        1000 < (liveRun fix_wait wait_time_us scans).wait_us ∧
          ∃ pre ewma, scans = pre ++ [ewma] ∧ 2 ≤ nColorsHot ewma) := by
  induction scans using List.reverseRecOn with
  | nil => simp [liveRun, liveStart]
  | append_singleton scans ewma ih =>
    rw [liveRun_append]
    set s := liveRun fix_wait wait_time_us scans with hs
    have hb := liveRun_waitBound fix_wait hW scans
    rw [← hs] at hb
    by_cases hg : fix_wait = false ∧ 1000 < s.wait_us
    · obtain ⟨rfl, hw⟩ := hg
      by_cases hh : 2 ≤ nColorsHot ewma
      · obtain ⟨hwait, hcount⟩ := liveAdapt_of_saturated wait_time_us s ewma hw hh
        rw [hwait, hcount]
        have hle := hb.le
        split_ifs with hc
        · exact ⟨le_rfl, fun _ => ⟨by omega, scans, ewma, rfl, hh⟩⟩
        · simp
      · rw [(liveAdapt_of_unsaturated wait_time_us s ewma hw (by omega)).2]
        simp
    · -- frozen: the count was zero, since a count of one comes with a wait above 1 ms
      rw [liveAdapt_of_frozen wait_time_us s ewma (by cases fix_wait <;> simp_all)]
      refine ⟨ih.1, fun h1 => ?_⟩
      obtain ⟨hw, -⟩ := ih.2 h1
      cases fix_wait
      · exact absurd ⟨rfl, hw⟩ hg
      · -- with `fix_wait` the count never moves from zero
        rw [hs, liveRun_fix_wait] at h1
        simp [liveStart] at h1

/-- **`--live` shrinks the wait only after two saturated scans in a row**: when the scan `ewma`
after the scans `scans` lowers the wait, it and the scan before it were saturated. -/
theorem liveRun_shrink_after_two (fix_wait : Bool) {wait_time_us : ℕ}
    (hW : 0 < wait_time_us % 2 ^ 32) (scans : List (List ℚ)) (ewma : List ℚ)
    (h : (liveAdapt fix_wait wait_time_us (liveRun fix_wait wait_time_us scans) ewma).wait_us <
      (liveRun fix_wait wait_time_us scans).wait_us) :
    2 ≤ nColorsHot ewma ∧ ∃ pre e, scans = pre ++ [e] ∧ 2 ≤ nColorsHot e := by
  set s := liveRun fix_wait wait_time_us scans with hs
  have hb := liveRun_waitBound fix_wait hW scans
  have hcount := liveRun_count fix_wait hW scans
  rw [← hs] at hb hcount
  by_cases hg : fix_wait = false ∧ 1000 < s.wait_us
  · obtain ⟨rfl, hw⟩ := hg
    by_cases hh : 2 ≤ nColorsHot ewma
    · rw [(liveAdapt_of_saturated wait_time_us s ewma hw hh).1] at h
      split_ifs at h with hc
      · -- the wait set back to `-w` is not lower
        exact absurd hb.le (by omega)
      · exact ⟨hh, (hcount.2 (by omega)).2⟩
    · rw [(liveAdapt_of_unsaturated wait_time_us s ewma hw (by omega)).1] at h
      exact absurd h (lt_irrefl _)
  · rw [liveAdapt_of_frozen wait_time_us s ewma (by cases fix_wait <;> simp_all)] at h
    exact absurd h (lt_irrefl _)

/-- Two scans with two hot colours each take 1 ms off a wait of 3 ms. -/
theorem liveRun_shrink_after_two_three :
    (liveAdapt false 3000 (liveRun false 3000 [[1, 1]]) [1, 1]).wait_us <
        (liveRun false 3000 [[1, 1]]).wait_us ∧
      2 ≤ nColorsHot [1, 1] ∧ ∃ pre e, [[(1 : ℚ), 1]] = pre ++ [e] ∧ 2 ≤ nColorsHot e := by
  have h : (liveAdapt false 3000 (liveRun false 3000 [[1, 1]]) [1, 1]).wait_us <
      (liveRun false 3000 [[1, 1]]).wait_us := by decide +kernel
  exact ⟨h, @liveRun_shrink_after_two false 3000 (by decide) [[1, 1]] [1, 1] h⟩

/-- **Under saturation `--live` swings between `W` and `W - 1000`.** With `-w` above 2 ms, after
`n` saturated scans the wait is `W - 1000` for even `n > 0` and `W` otherwise: the first scan of
each pair sets it back to `W`, so it never shrinks further.

**Proof sketch.** Reverse induction on the scans; the wait stays above 1 ms, so each scan adapts,
and the count of saturated scans is the parity of their number. -/
theorem liveRun_saturated {wait_time_us : ℕ} (hW : 2000 < wait_time_us % 2 ^ 32)
    (scans : List (List ℚ)) (hsat : ∀ ewma ∈ scans, 2 ≤ nColorsHot ewma) :
    (liveRun false wait_time_us scans).wait_us =
        (if scans ≠ [] ∧ scans.length % 2 = 0 then wait_time_us % 2 ^ 32 - 1000
          else wait_time_us % 2 ^ 32) ∧
      (liveRun false wait_time_us scans).consec_shrink_high = scans.length % 2 := by
  induction scans using List.reverseRecOn with
  | nil => simp [liveRun, liveStart]
  | append_singleton scans ewma ih =>
    obtain ⟨hwait, hcount⟩ := ih (fun e he => hsat e (List.mem_append_left _ he))
    have hh := hsat ewma (List.mem_append_right _ (List.mem_singleton_self _))
    have hw : 1000 < (liveRun false wait_time_us scans).wait_us := by
      rw [hwait]
      split_ifs <;> omega
    rw [liveRun_append, (liveAdapt_of_saturated _ _ ewma hw hh).1,
      (liveAdapt_of_saturated _ _ ewma hw hh).2, hcount, hwait, List.length_append,
      List.length_singleton]
    -- the parity of the number of scans decides both the branch and the result
    rcases Nat.mod_two_eq_zero_or_one scans.length with hp | hp
    · have hp' : (scans.length + 1) % 2 = 1 := by omega
      simp [hp, hp']
    · have hp' : (scans.length + 1) % 2 = 0 := by omega
      simp [hp, hp']

/-- The default `-w` of 7 ms and four scans with both colours saturated: the wait is 6 ms, not
the 5 ms that two shrinks would give. -/
theorem liveRun_saturated_default :
    2000 < 7000 % 2 ^ 32 ∧ (∀ ewma ∈ List.replicate 4 [(1 : ℚ), 1], 2 ≤ nColorsHot ewma) ∧
      (liveRun false 7000 (List.replicate 4 [1, 1])).wait_us = 6000 := by
  have hsat : ∀ ewma ∈ List.replicate 4 [(1 : ℚ), 1], 2 ≤ nColorsHot ewma := by
    intro ewma he
    rw [List.eq_of_mem_replicate he]
    norm_num [nColorsHot]
  refine ⟨by decide, hsat, ?_⟩
  rw [(liveRun_saturated (by decide) _ hsat).1]
  decide

/-! ## The monitor loop -/

/-- `n_hot_socket` (`vset_ops.c:2637-2638`): the sockets at an EWMA of at least `0.95`. -/
def nHotSocket (ewma : List (Option ℚ)) : ℕ := ewma.countP fun e => e.any fun x => 0.95 ≤ x

/-- `n_cold_socket` (`vset_ops.c:2640-2641`): the sockets at an EWMA of at most `0.20`. -/
def nColdSocket (ewma : List (Option ℚ)) : ℕ := ewma.countP fun e => e.any fun x => x ≤ 0.20

/-- The state the monitor carries from scan to scan. -/
structure MonitorState where
  wait_time_us : ℕ
  consec_shrink_high : ℕ
  deriving DecidableEq, Repr

/-- One adaptation of `monitor_eviction_rate_multi` (`vset_ops.c:2651-2663`) after a scan ending
at `ewma`, one entry per socket; `og_wait_time_us` is the value of `-w`. -/
def monitorAdapt (fix_wait : Bool) (og_wait_time_us : ℕ) (s : MonitorState)
    (ewma : List (Option ℚ)) : MonitorState :=
  if fix_wait = false ∧ 1000 < s.wait_time_us then
    let s₁ : MonitorState :=
      if nHotSocket ewma = ewma.length then
        { s with consec_shrink_high := s.consec_shrink_high + 1 }
      -- "once is enough to bounce back to original -w"; the count is left as it is
      else if nColdSocket ewma = ewma.length then { s with wait_time_us := og_wait_time_us }
      else { s with consec_shrink_high := 0 }
    if 2 ≤ s₁.consec_shrink_high then ⟨s₁.wait_time_us - 1000, 0⟩ else s₁
  else s

/-- The monitor over the scans `scans`, from the wait `-w` (`vset_ops.c:39-40`, `vset.c:396`). -/
def monitorRun (fix_wait : Bool) (og_wait_time_us : ℕ) (scans : List (List (Option ℚ))) :
    MonitorState :=
  scans.foldl (monitorAdapt fix_wait og_wait_time_us) ⟨og_wait_time_us, 0⟩

lemma monitorRun_append (fix_wait : Bool) (og_wait_time_us : ℕ)
    (scans : List (List (Option ℚ))) (ewma : List (Option ℚ)) :
    monitorRun fix_wait og_wait_time_us (scans ++ [ewma]) =
      monitorAdapt fix_wait og_wait_time_us (monitorRun fix_wait og_wait_time_us scans) ewma := by
  simp [monitorRun]

/-! ### What one adaptation does -/

section MonitorStep

variable {fix_wait : Bool} (og_wait_time_us : ℕ) (s : MonitorState) (ewma : List (Option ℚ))

lemma monitorAdapt_of_frozen (h : fix_wait = true ∨ s.wait_time_us ≤ 1000) :
    monitorAdapt fix_wait og_wait_time_us s ewma = s := by
  have hg : ¬(fix_wait = false ∧ 1000 < s.wait_time_us) := by
    rcases h with rfl | h <;> simp; omega
  simp only [monitorAdapt, if_neg hg]

/-- A saturated scan counts; the second one in a row shrinks the wait by 1 ms. -/
lemma monitorAdapt_of_saturated (hw : 1000 < s.wait_time_us)
    (hh : nHotSocket ewma = ewma.length) :
    monitorAdapt false og_wait_time_us s ewma =
      if s.consec_shrink_high = 0 then ⟨s.wait_time_us, 1⟩ else ⟨s.wait_time_us - 1000, 0⟩ := by
  unfold monitorAdapt
  rw [if_pos ⟨rfl, hw⟩]
  dsimp only
  rw [if_pos hh]
  by_cases hc : s.consec_shrink_high = 0
  · simp [hc]
  · simp [hc, show 2 ≤ s.consec_shrink_high + 1 by omega]

/-- An idle scan sets the wait back to `-w` and keeps the count. -/
lemma monitorAdapt_of_idle (hw : 1000 < s.wait_time_us) (hh : nHotSocket ewma ≠ ewma.length)
    (hc : nColdSocket ewma = ewma.length) (hcount : s.consec_shrink_high ≤ 1) :
    monitorAdapt false og_wait_time_us s ewma = ⟨og_wait_time_us, s.consec_shrink_high⟩ := by
  unfold monitorAdapt
  rw [if_pos ⟨rfl, hw⟩]
  dsimp only
  rw [if_neg hh, if_pos hc]
  dsimp only
  rw [if_neg (by omega)]

/-- A scan neither saturated nor idle clears the count. -/
lemma monitorAdapt_of_mixed (hw : 1000 < s.wait_time_us) (hh : nHotSocket ewma ≠ ewma.length)
    (hc : nColdSocket ewma ≠ ewma.length) :
    monitorAdapt false og_wait_time_us s ewma = ⟨s.wait_time_us, 0⟩ := by
  unfold monitorAdapt
  rw [if_pos ⟨rfl, hw⟩]
  dsimp only
  rw [if_neg hh, if_neg hc]
  dsimp only
  rw [if_neg (by omega)]

end MonitorStep

/-! ### Bounds on the wait -/

/-- The monitor's invariant: the wait bound, and a count of at most one saturated scan. -/
structure MonitorInv (W : ℕ) (s : MonitorState) : Prop where
  bound : WaitBound W s.wait_time_us
  count : s.consec_shrink_high ≤ 1

/-- One adaptation of the monitor keeps the invariant. -/
lemma monitorAdapt_inv {fix_wait : Bool} {W : ℕ} (hW : 0 < W) {s : MonitorState}
    (ewma : List (Option ℚ)) (hi : MonitorInv W s) :
    MonitorInv W (monitorAdapt fix_wait W s ewma) := by
  by_cases hg : fix_wait = false ∧ 1000 < s.wait_time_us
  · obtain ⟨rfl, hw⟩ := hg
    by_cases hh : nHotSocket ewma = ewma.length
    · rw [monitorAdapt_of_saturated W s ewma hw hh]
      split_ifs
      · exact ⟨hi.bound, le_rfl⟩
      · exact ⟨hi.bound.shrink hw, zero_le_one⟩
    by_cases hc : nColdSocket ewma = ewma.length
    · rw [monitorAdapt_of_idle W s ewma hw hh hc hi.count]
      exact ⟨WaitBound.self hW, hi.count⟩
    · rw [monitorAdapt_of_mixed W s ewma hw hh hc]
      exact ⟨hi.bound, zero_le_one⟩
  · rw [monitorAdapt_of_frozen W s ewma (by cases fix_wait <;> simp_all)]
    exact hi

/-- **Every run of the monitor keeps the wait in `(0, W]`, a multiple of 1 ms below `W`**, and
its count of saturated scans at most one. -/
theorem monitorRun_inv (fix_wait : Bool) {W : ℕ} (hW : 0 < W) (scans : List (List (Option ℚ))) :
    MonitorInv W (monitorRun fix_wait W scans) := by
  induction scans using List.reverseRecOn with
  | nil => exact ⟨WaitBound.self hW, zero_le_one⟩
  | append_singleton scans ewma ih =>
    rw [monitorRun_append]
    exact monitorAdapt_inv hW ewma ih

/-! ### When the monitor changes the wait -/

/-- **The monitor sets the wait back to `-w` only on an idle scan**: when the scan `ewma` after
the scans `scans` moves the wait to `W`, every socket of it was at most `0.20` and not all at
least `0.95`. -/
theorem monitorRun_reset_of_idle {W : ℕ} (hW : 0 < W) (scans : List (List (Option ℚ)))
    (ewma : List (Option ℚ))
    (h : (monitorAdapt false W (monitorRun false W scans) ewma).wait_time_us = W)
    (hne : (monitorRun false W scans).wait_time_us ≠ W) :
    nColdSocket ewma = ewma.length ∧ nHotSocket ewma ≠ ewma.length := by
  set s := monitorRun false W scans with hs
  have hi := monitorRun_inv false hW scans
  rw [← hs] at hi
  by_cases hw : 1000 < s.wait_time_us
  · by_cases hh : nHotSocket ewma = ewma.length
    · -- a saturated scan keeps the wait or shrinks it, below `W` either way
      rw [monitorAdapt_of_saturated W s ewma hw hh] at h
      have hle := hi.bound.le
      split_ifs at h <;> simp at h <;> omega
    by_cases hc : nColdSocket ewma = ewma.length
    · exact ⟨hc, hh⟩
    · rw [monitorAdapt_of_mixed W s ewma hw hh hc] at h
      exact absurd h hne
  · rw [monitorAdapt_of_frozen W s ewma (.inr (by omega))] at h
    exact absurd h hne

/-- Two saturated scans shrink a wait of 3 ms to 2 ms, and an idle scan sets it back. -/
theorem monitorRun_reset_of_idle_three :
    (monitorAdapt false 3000 (monitorRun false 3000 [[some 1], [some 1]])
        [some (1 / 10)]).wait_time_us = 3000 ∧
      (monitorRun false 3000 [[some 1], [some 1]]).wait_time_us ≠ 3000 ∧
      nColdSocket [some (1 / 10 : ℚ)] = [some (1 / 10 : ℚ)].length ∧
        nHotSocket [some (1 / 10 : ℚ)] ≠ [some (1 / 10 : ℚ)].length := by
  have h : (monitorAdapt false 3000 (monitorRun false 3000 [[some 1], [some 1]])
      [some (1 / 10)]).wait_time_us = 3000 := by decide +kernel
  have hne : (monitorRun false 3000 [[some 1], [some 1]]).wait_time_us ≠ 3000 := by
    decide +kernel
  exact ⟨h, hne,
    @monitorRun_reset_of_idle 3000 (by decide) [[some 1], [some 1]] [some (1 / 10)] h hne⟩

/-! ### Sustained saturation -/

/-- The shrink of the wait by 1 ms, which no adaptation applies at 1 ms or below. -/
def shrinkWait (w : ℕ) : ℕ := if 1000 < w then w - 1000 else w

section Saturated

variable {α : Type} (adapt : MonitorState → α → MonitorState) (sat : α → Prop)
  (hfirst : ∀ w e, 1000 < w → sat e → adapt ⟨w, 0⟩ e = ⟨w, 1⟩)
  (hsecond : ∀ w e, 1000 < w → sat e → adapt ⟨w, 1⟩ e = ⟨w - 1000, 0⟩)
  (hfrozen : ∀ w e, w ≤ 1000 → adapt ⟨w, 0⟩ e = ⟨w, 0⟩)

include hfirst hsecond hfrozen

/-- Two saturated scans from a count of zero shrink the wait once. -/
lemma adapt_saturated_pair (w : ℕ) {e₁ e₂ : α} (h₁ : sat e₁) (h₂ : sat e₂) :
    adapt (adapt ⟨w, 0⟩ e₁) e₂ = ⟨shrinkWait w, 0⟩ := by
  by_cases hw : 1000 < w
  · rw [hfirst w e₁ hw h₁, hsecond w e₂ hw h₂, shrinkWait, if_pos hw]
  · rw [hfrozen w e₁ (by omega), hfrozen w e₂ (by omega), shrinkWait, if_neg hw]

/-- **Saturated scans shrink the wait once every two.** An adaptation that counts a first
saturated scan, shrinks the wait by 1 ms on the second and clears the count, and leaves a
wait of at most 1 ms alone, takes the wait `w` with a count of zero to `w` shrunk `n / 2` times
over `n` saturated scans.

**Proof sketch.** Induction on the scans, two at a time (`adapt_saturated_pair`); a last
single scan only counts. -/
lemma foldl_adapt_saturated : ∀ (scans : List α) (w : ℕ), (∀ e ∈ scans, sat e) →
    (scans.foldl adapt ⟨w, 0⟩).wait_time_us = shrinkWait^[scans.length / 2] w
  | [], _, _ => by simp
  | [e], w, hsat => by
    by_cases hw : 1000 < w
    · simp [hfirst w e hw (hsat e (by simp))]
    · simp [hfrozen w e (by omega)]
  | e₁ :: e₂ :: scans, w, hsat => by
    rw [List.foldl_cons, List.foldl_cons,
      adapt_saturated_pair adapt sat hfirst hsecond hfrozen w (hsat e₁ (by simp))
        (hsat e₂ (by simp)),
      foldl_adapt_saturated scans _ (fun e he => hsat e (by simp [he])),
      List.length_cons, List.length_cons, show (scans.length + 1 + 1) / 2 = scans.length / 2 + 1
        by omega, Function.iterate_succ_apply]

end Saturated

/-- **Under saturation the monitor shrinks the wait by 1 ms every second scan**, down to at most
1 ms: from any wait `w` and a count of zero, `n` scans with every socket paired and at an EWMA of
at least `0.95` shrink it `n / 2` times. -/
theorem monitorRun_saturated (og_wait_time_us : ℕ) :
    ∀ (scans : List (List (Option ℚ))) (w : ℕ),
      (∀ ewma ∈ scans, nHotSocket ewma = ewma.length) →
      (scans.foldl (monitorAdapt false og_wait_time_us) ⟨w, 0⟩).wait_time_us =
        shrinkWait^[scans.length / 2] w :=
  foldl_adapt_saturated (monitorAdapt false og_wait_time_us) (fun e => nHotSocket e = e.length)
    (fun w e hw h => by rw [monitorAdapt_of_saturated _ ⟨w, 0⟩ e hw h, if_pos rfl])
    (fun w e hw h => by rw [monitorAdapt_of_saturated _ ⟨w, 1⟩ e hw h, if_neg one_ne_zero])
    (fun w e hw => monitorAdapt_of_frozen _ ⟨w, 0⟩ e (.inr hw))

/-- Five saturated scans of one socket from a wait of 3 ms: two shrinks. -/
theorem monitorRun_saturated_five :
    (∀ ewma ∈ [[some (1 : ℚ)], [some 1], [some 1], [some 1], [some 1]],
        nHotSocket ewma = ewma.length) ∧
      ([[some (1 : ℚ)], [some 1], [some 1], [some 1], [some 1]].foldl (monitorAdapt false 3000)
        ⟨3000, 0⟩).wait_time_us = shrinkWait^[5 / 2] 3000 := by
  have hsat : ∀ ewma ∈ [[some (1 : ℚ)], [some 1], [some 1], [some 1], [some 1]],
      nHotSocket ewma = ewma.length := by decide +kernel
  exact ⟨hsat, monitorRun_saturated 3000 _ 3000 hsat⟩

example : shrinkWait^[5 / 2] 3000 = 1000 := by decide

/-- Idle scans after a saturated one keep the count of one and the wait `-w`. -/
lemma monitorAdapt_idle_foldl {og_wait_time_us : ℕ} (hW : 1000 < og_wait_time_us) :
    ∀ idles : List (List (Option ℚ)),
      (∀ ewma ∈ idles, nHotSocket ewma ≠ ewma.length ∧ nColdSocket ewma = ewma.length) →
      idles.foldl (monitorAdapt false og_wait_time_us) ⟨og_wait_time_us, 1⟩ =
        ⟨og_wait_time_us, 1⟩
  | [], _ => rfl
  | ewma :: idles, hidle => by
    have h := hidle ewma List.mem_cons_self
    rw [List.foldl_cons, monitorAdapt_of_idle og_wait_time_us _ ewma hW h.1 h.2 le_rfl]
    exact monitorAdapt_idle_foldl hW idles fun e he => hidle e (List.mem_cons_of_mem _ he)

/-- **An idle scan does not clear the monitor's count**: a saturated scan, any idle ones, and a
saturated scan shrink the wait `-w` by 1 ms, though the saturated scans are not consecutive. -/
theorem monitorRun_shrink_across_idle {W : ℕ} (hW : 1000 < W) (ewma₁ ewma₂ : List (Option ℚ))
    (idles : List (List (Option ℚ))) (h₁ : nHotSocket ewma₁ = ewma₁.length)
    (hidle : ∀ ewma ∈ idles, nHotSocket ewma ≠ ewma.length ∧ nColdSocket ewma = ewma.length)
    (h₂ : nHotSocket ewma₂ = ewma₂.length) :
    (monitorRun false W (ewma₁ :: idles ++ [ewma₂])).wait_time_us = W - 1000 := by
  have hfirst : monitorAdapt false W ⟨W, 0⟩ ewma₁ = ⟨W, 1⟩ := by
    rw [monitorAdapt_of_saturated W ⟨W, 0⟩ ewma₁ hW h₁, if_pos rfl]
  rw [monitorRun, List.cons_append, List.foldl_cons, hfirst, List.foldl_append,
    monitorAdapt_idle_foldl hW idles hidle, List.foldl_cons, List.foldl_nil,
    monitorAdapt_of_saturated W ⟨W, 1⟩ ewma₂ hW h₂, if_neg one_ne_zero]

/-- A saturated scan, an idle one and a saturated one take 1 ms off a wait of 3 ms. -/
theorem monitorRun_shrink_across_idle_three :
    (monitorRun false 3000 ([some 1] :: [[some (1 / 10)]] ++ [[some 1]])).wait_time_us =
      3000 - 1000 :=
  monitorRun_shrink_across_idle (by decide) [some 1] [some 1] [[some (1 / 10)]] (by decide +kernel)
    (by decide +kernel) (by decide +kernel)

end EvCache.Vset
