import Mathlib

set_option autoImplicit false

/-!
# The hit thresholds of the cache levels

`init_cache_lats_thresh` puts the hit threshold of each level between its median latency and
the next level's, `hit_thresh_zhao(h, m) = (3 h + 2 m) / 4.6`, after two guards against
abnormal medians: an L2 latency at most the L1d one becomes `1.2 l1d`, and an L3 latency at
most `1.15 l2` becomes `1.8 l2`; an L3 threshold over `2.5 l3` is cut to `2 l3`.

A threshold of `hit_thresh_zhao` lies strictly between `h` and `m` exactly when
`8 h + 23 ≤ 10 m` and `15 h < 13 m` (`hitThreshZhao_between_iff`). The second condition asks
for `m > 15/13 · h ≈ 1.1538 h`: more than the `1.15` the L3 guard checks, and the L2 guard
only checks `m > h`. So the three thresholds separate the levels exactly under these
conditions on the adjusted latencies (`initCacheLatsThresh_separates_iff`), and an L3 median in
`(1.15 l2, 15/13 · l2]` passes the guard with an L2 threshold at or above it.

## Main definitions

* `EvCache.Lats.CacheLats` — `CacheLats`.
* `EvCache.Lats.hitThreshZhao` — `hit_thresh_zhao`.
* `EvCache.Lats.initCacheLatsThresh` — `init_cache_lats_thresh`, from the four medians.

## Main results

* `EvCache.Lats.hitThreshZhao_eq` — without a `u32` wrap the threshold is `5 (3 h + 2 m) / 23`.
* `EvCache.Lats.hitThreshZhao_between_iff` — when a threshold separates `h` from `m`.
* `EvCache.Lats.initCacheLatsThresh_separates_iff` — when the thresholds separate the levels.

## Model

The medians are the values the `init_*_lat` measurements leave in `g_lats`, as natural
numbers. `hit_thresh_zhao` takes the `u64` fields as `u32` and computes in `u32`, hence
`% 2 ^ 32`. The `double` constants are the rationals they stand for (`4.6`, `1.2`, `1.15`,
`1.8`, `2.5`), and the conversion of a non-negative `double` to an integer truncates, which
is `Nat.floor`.

## References

* `src/src/lats.c`, lines 313-333; `src/include/lats.h`, lines 13-30;
  `src/include/cache_info.h`, lines 31-41.
-/

namespace EvCache.Lats

/-! ## Model -/

/-- `CacheLats` (`cache_info.h:31-41`): the median latencies and the thresholds, in cycles. -/
structure CacheLats where
  l1d : ℕ
  l2 : ℕ
  l3 : ℕ
  dram : ℕ
  l1d_thresh : ℕ
  l2_thresh : ℕ
  l3_thresh : ℕ
  interrupt_thresh : ℕ
  deriving DecidableEq, Repr

/-- `hit_thresh_zhao(hit_lat, miss_lat)` (`lats.h:13`): `u32` arguments and arithmetic, and the
quotient by `4.6` truncated back to `u32`. -/
def hitThreshZhao (hit_lat miss_lat : ℕ) : ℕ :=
  ⌊(((3 * (hit_lat % 2 ^ 32) + 2 * (miss_lat % 2 ^ 32)) % 2 ^ 32 : ℕ) : ℚ) / (46 / 10)⌋₊

/-- `init_cache_lats_thresh` (`lats.c:313`) once `init_dram_lat`, `init_l1d_lat`,
`init_l2_lat` and `init_l3_lat` have left the medians `l1d`, `l2`, `l3` and `dram`. -/
def initCacheLatsThresh (l1d l2 l3 dram : ℕ) : CacheLats :=
  let interrupt_thresh := dram * 5 % 2 ^ 64
  let l2 := if l2 ≤ l1d then ⌊(l1d : ℚ) * (12 / 10)⌋₊ else l2
  let l3 := if (l3 : ℚ) ≤ (l2 : ℚ) * (115 / 100) then ⌊(l2 : ℚ) * (18 / 10)⌋₊ else l3
  let l3_thresh := hitThreshZhao l3 dram
  -- `if (g_lats.l3_thresh > (u32)g_lats.l3 * 2.5) g_lats.l3_thresh = g_lats.l3 * 2;`
  let l3_thresh :=
    if ((l3 % 2 ^ 32 : ℕ) : ℚ) * (25 / 10) < (l3_thresh : ℚ) then l3 * 2 % 2 ^ 64 else l3_thresh
  ⟨l1d, l2, l3, dram, hitThreshZhao l1d l2, hitThreshZhao l2 l3, l3_thresh, interrupt_thresh⟩

/-! ## Truncated rationals as natural divisions -/

lemma floor_natCast_mul_div (n a b : ℕ) : ⌊(n : ℚ) * ((a : ℚ) / b)⌋₊ = a * n / b := by
  have h : (n : ℚ) * ((a : ℚ) / b) = ((a * n : ℕ) : ℚ) / (b : ℚ) := by
    push_cast
    ring
  rw [h, Nat.floor_div_natCast, Nat.floor_natCast]

lemma natCast_le_mul_div_iff (x y a b : ℕ) (hb : 0 < b) :
    (x : ℚ) ≤ (y : ℚ) * ((a : ℚ) / b) ↔ b * x ≤ a * y := by
  have hb' : (0 : ℚ) < b := by exact_mod_cast hb
  rw [← mul_div_assoc, le_div_iff₀ hb', mul_comm (x : ℚ), mul_comm (y : ℚ)]
  exact_mod_cast Iff.rfl

lemma mul_div_lt_natCast_iff (x t a b : ℕ) (hb : 0 < b) :
    (x : ℚ) * ((a : ℚ) / b) < (t : ℚ) ↔ a * x < b * t := by
  have hb' : (0 : ℚ) < b := by exact_mod_cast hb
  rw [← mul_div_assoc, div_lt_iff₀ hb', mul_comm (t : ℚ), mul_comm (x : ℚ)]
  exact_mod_cast Iff.rfl

/-- Without a `u32` wrap, `hit_thresh_zhao` is `5 (3 h + 2 m) / 23`. -/
lemma hitThreshZhao_eq {hit_lat miss_lat : ℕ} (h : 3 * hit_lat + 2 * miss_lat < 2 ^ 32) :
    hitThreshZhao hit_lat miss_lat = 5 * (3 * hit_lat + 2 * miss_lat) / 23 := by
  have hq : (46 / 10 : ℚ) = (23 : ℕ) / (5 : ℕ) := by norm_num
  unfold hitThreshZhao
  rw [Nat.mod_eq_of_lt (show hit_lat < 2 ^ 32 by omega),
    Nat.mod_eq_of_lt (show miss_lat < 2 ^ 32 by omega), Nat.mod_eq_of_lt h, hq, div_div_eq_mul_div,
    ← floor_natCast_mul_div]
  congr 1
  ring

/-- **When a threshold separates two levels.** Without a `u32` wrap, `hit_thresh_zhao(h, m)`
lies strictly between `h` and `m` exactly when `8 h + 23 ≤ 10 m` and `15 h < 13 m`. -/
lemma hitThreshZhao_between_iff {hit_lat miss_lat : ℕ}
    (h : 3 * hit_lat + 2 * miss_lat < 2 ^ 32) :
    hit_lat < hitThreshZhao hit_lat miss_lat ∧ hitThreshZhao hit_lat miss_lat < miss_lat ↔
      8 * hit_lat + 23 ≤ 10 * miss_lat ∧ 15 * hit_lat < 13 * miss_lat := by
  rw [hitThreshZhao_eq h]
  omega

/-! ## The adjusted latencies and the thresholds -/

section Fields

variable (l1d l2 l3 dram : ℕ)

lemma initCacheLatsThresh_l2 :
    (initCacheLatsThresh l1d l2 l3 dram).l2 = if l2 ≤ l1d then 6 * l1d / 5 else l2 := by
  have h := floor_natCast_mul_div l1d 6 5
  push_cast at h
  simp only [initCacheLatsThresh]
  split_ifs
  · rw [show (12 / 10 : ℚ) = 6 / 5 by norm_num, h]
  · rfl

lemma initCacheLatsThresh_l3 :
    (initCacheLatsThresh l1d l2 l3 dram).l3 =
      if 20 * l3 ≤ 23 * (initCacheLatsThresh l1d l2 l3 dram).l2 then
        9 * (initCacheLatsThresh l1d l2 l3 dram).l2 / 5
      else l3 := by
  generalize hl2 : (initCacheLatsThresh l1d l2 l3 dram).l2 = l2'
  have hfloor := floor_natCast_mul_div l2' 9 5
  have hle := natCast_le_mul_div_iff l3 l2' 23 20 (by norm_num)
  push_cast at hfloor hle
  simp only [initCacheLatsThresh] at hl2 ⊢
  rw [hl2, show (115 / 100 : ℚ) = 23 / 20 by norm_num, show (18 / 10 : ℚ) = 9 / 5 by norm_num,
    hfloor]
  exact if_congr hle rfl rfl

lemma initCacheLatsThresh_l1dThresh :
    (initCacheLatsThresh l1d l2 l3 dram).l1d_thresh =
      hitThreshZhao l1d (initCacheLatsThresh l1d l2 l3 dram).l2 := rfl

lemma initCacheLatsThresh_l2Thresh :
    (initCacheLatsThresh l1d l2 l3 dram).l2_thresh =
      hitThreshZhao (initCacheLatsThresh l1d l2 l3 dram).l2
        (initCacheLatsThresh l1d l2 l3 dram).l3 := rfl

lemma initCacheLatsThresh_l3Thresh (hl3 : (initCacheLatsThresh l1d l2 l3 dram).l3 < 2 ^ 32) :
    (initCacheLatsThresh l1d l2 l3 dram).l3_thresh =
      if 5 * (initCacheLatsThresh l1d l2 l3 dram).l3 <
          2 * hitThreshZhao (initCacheLatsThresh l1d l2 l3 dram).l3 dram then
        2 * (initCacheLatsThresh l1d l2 l3 dram).l3
      else hitThreshZhao (initCacheLatsThresh l1d l2 l3 dram).l3 dram := by
  generalize hl3' : (initCacheLatsThresh l1d l2 l3 dram).l3 = l3' at hl3
  have hlt := mul_div_lt_natCast_iff l3' (hitThreshZhao l3' dram) 5 2 (by norm_num)
  push_cast at hlt
  simp only [initCacheLatsThresh] at hl3' ⊢
  rw [hl3', Nat.mod_eq_of_lt hl3, show (25 / 10 : ℚ) = 5 / 2 by norm_num,
    Nat.mod_eq_of_lt (show l3' * 2 < 2 ^ 64 by omega), mul_comm l3' 2]
  exact if_congr hlt rfl rfl

end Fields

/-- **When the thresholds separate the levels.** For medians below `2 ^ 28` and a positive
L1d latency, each threshold lies strictly between the adjusted latencies of its level and the
next exactly when `hitThreshZhao_between_iff` says so; the cut of the L3 threshold to `2 l3`
changes nothing, since it fires only for a DRAM latency over `4.25 l3`.

**Proof sketch.** The guards keep the adjusted L2 and L3 latencies positive and below
`2 ^ 30`, so no `u32` sum wraps and every threshold is `5 (3 h + 2 m) / 23`. -/
theorem initCacheLatsThresh_separates_iff {l1d l2 l3 dram : ℕ} (hpos : 0 < l1d)
    (hl1d : l1d < 2 ^ 28) (hl2 : l2 < 2 ^ 28) (hl3 : l3 < 2 ^ 28) (hdram : dram < 2 ^ 28) :
    (l1d < (initCacheLatsThresh l1d l2 l3 dram).l1d_thresh ∧
        (initCacheLatsThresh l1d l2 l3 dram).l1d_thresh < (initCacheLatsThresh l1d l2 l3 dram).l2 ↔
      8 * l1d + 23 ≤ 10 * (initCacheLatsThresh l1d l2 l3 dram).l2 ∧
        15 * l1d < 13 * (initCacheLatsThresh l1d l2 l3 dram).l2) ∧
    ((initCacheLatsThresh l1d l2 l3 dram).l2 < (initCacheLatsThresh l1d l2 l3 dram).l2_thresh ∧
        (initCacheLatsThresh l1d l2 l3 dram).l2_thresh < (initCacheLatsThresh l1d l2 l3 dram).l3 ↔
      8 * (initCacheLatsThresh l1d l2 l3 dram).l2 + 23 ≤
          10 * (initCacheLatsThresh l1d l2 l3 dram).l3 ∧
        15 * (initCacheLatsThresh l1d l2 l3 dram).l2 <
          13 * (initCacheLatsThresh l1d l2 l3 dram).l3) ∧
    ((initCacheLatsThresh l1d l2 l3 dram).l3 < dram →
      ((initCacheLatsThresh l1d l2 l3 dram).l3 < (initCacheLatsThresh l1d l2 l3 dram).l3_thresh ∧
          (initCacheLatsThresh l1d l2 l3 dram).l3_thresh < dram ↔
        8 * (initCacheLatsThresh l1d l2 l3 dram).l3 + 23 ≤ 10 * dram ∧
          15 * (initCacheLatsThresh l1d l2 l3 dram).l3 < 13 * dram)) := by
  have hl2' := initCacheLatsThresh_l2 l1d l2 l3 dram
  have hl3' := initCacheLatsThresh_l3 l1d l2 l3 dram
  -- the adjusted latencies are positive and far from a `u32` wrap
  have hb2 : 0 < (initCacheLatsThresh l1d l2 l3 dram).l2 ∧
      (initCacheLatsThresh l1d l2 l3 dram).l2 < 2 ^ 29 := by
    split_ifs at hl2' <;> omega
  have hb3 : 0 < (initCacheLatsThresh l1d l2 l3 dram).l3 ∧
      (initCacheLatsThresh l1d l2 l3 dram).l3 < 2 ^ 30 := by
    split_ifs at hl3' <;> omega
  rw [initCacheLatsThresh_l1dThresh, initCacheLatsThresh_l2Thresh,
    initCacheLatsThresh_l3Thresh l1d l2 l3 dram (by omega)]
  generalize (initCacheLatsThresh l1d l2 l3 dram).l2 = l2' at hb2
  generalize (initCacheLatsThresh l1d l2 l3 dram).l3 = l3' at hb3
  refine ⟨hitThreshZhao_between_iff (by omega), hitThreshZhao_between_iff (by omega), fun _ => ?_⟩
  rw [hitThreshZhao_eq (by omega)]
  split_ifs <;> omega

/-- Medians `100`, `300`, `346` and `1000`: the L3 median passes the `1.15` guard, and the L2
threshold is the L3 median itself. -/
theorem initCacheLatsThresh_separates_iff_band :
    (initCacheLatsThresh 100 300 346 1000).l3 = 346 ∧
      (initCacheLatsThresh 100 300 346 1000).l2_thresh = 346 ∧
      ¬((initCacheLatsThresh 100 300 346 1000).l2 <
          (initCacheLatsThresh 100 300 346 1000).l2_thresh ∧
        (initCacheLatsThresh 100 300 346 1000).l2_thresh <
          (initCacheLatsThresh 100 300 346 1000).l3) := by
  have hl2 : (initCacheLatsThresh 100 300 346 1000).l2 = 300 := by
    rw [initCacheLatsThresh_l2]
    norm_num
  have hl3 : (initCacheLatsThresh 100 300 346 1000).l3 = 346 := by
    rw [initCacheLatsThresh_l3, hl2]
    norm_num
  have hsep := (@initCacheLatsThresh_separates_iff 100 300 346 1000 (by norm_num) (by norm_num)
    (by norm_num) (by norm_num) (by norm_num)).2.1
  have hthr : (initCacheLatsThresh 100 300 346 1000).l2_thresh = 346 := by
    rw [initCacheLatsThresh_l2Thresh, hl2, hl3, hitThreshZhao_eq (by norm_num)]
  refine ⟨hl3, hthr, ?_⟩
  rw [hsep, hl2, hl3]
  norm_num

end EvCache.Lats
