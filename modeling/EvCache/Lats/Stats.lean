import EvCache.Lib.FreqTable
import Mathlib.Order.Bounds.Basic
import Mathlib.Order.Interval.Finset.Defs
import Mathlib.Data.Int.Interval

set_option autoImplicit false

/-!
# The statistics of `lats.c`: medians and the minimal cluster

`calc_median` sorts the first `cnt` entries of an array and takes the middle one, or the
truncated mean of the two middle ones. `calc_min_cluster`, with which the three parallel
builders report the size of the smallest eviction sets they built, keeps the sizes in
`(0, n_ways]` of the sorted array, counts them in a frequency table of 32 entries and returns
the smallest size that at least `⌊5 · clean_len / 100⌋` of them have, falling back to their
median when no size has that many.

The search returns the least element of `{a valid | count a ≥ min_freq}`
(`calcMinCluster_eq_least`). It never falls back to the median when the LLC has at most 20
ways: with at most 20 distinct sizes one of them reaches `⌊clean_len / 20⌋`
(`calcMinCluster_of_nWays_le_twenty`). The table has 32 entries and is not checked: a run
faults exactly when more than 32 distinct sizes are valid, which no LLC with at most 32 ways
allows (`calcMinCluster_error_iff`).

`init_dram_lat` keeps the latencies of the trials that stayed on one core at the front of a
zeroed array of `reps` entries and takes the median of all `reps` entries, where
`init_l2_lat` takes it of the `lat_cnt` kept ones. So each rejected trial enters the DRAM
median as a latency of `0`: with `z` rejected trials out of `reps`, it is the entry of rank
`reps / 2 - z` of the kept latencies, not their median (`initDramLat_eq_rank`).

## Main definitions

* `EvCache.Lats.calcMedian` — `calc_median`.
* `EvCache.Lats.calcMinCluster` — `calc_min_cluster`.
* `EvCache.Lats.initDramLat`, `EvCache.Lats.initL2Lat` — the medians `init_dram_lat` and
  `init_l2_lat` leave in `g_lats`.

## Main results

* `EvCache.Lats.bestVal_isLeast` — the search of the table finds the least frequent-enough size.
* `EvCache.Lats.calcMinCluster_eq_least`, `EvCache.Lats.calcMinCluster_of_nWays_le_twenty`,
  `EvCache.Lats.calcMinCluster_error_iff`.
* `EvCache.Lats.initDramLat_eq_rank`.

## Model

Arrays are lists of `i32` values as integers; `qsort` with `compare_lats` sorts ascending, and
as the sorted permutation of a list is unique a merge sort stands for it. C's `/` on `i32`
truncates (`Int.tdiv`), and the sum of the two middle entries is an `i32` addition, which wraps
around once it leaves the range of an `i32` (`EvCache.Lats.addI32`). `clean_len * 5` is `u32`
arithmetic. The frequency table is `EvCache.Lib.FreqTable` with capacity 32, its writes
checked; the allocation of `cleaned` is assumed to succeed. A trial of a latency measurement is
its `u64` latency and whether the two `rdtscp` reads saw the same core; the latency is stored
as an `i32`.

## References

* `src/src/lats.c`, lines 12-228; `src/src/evset_para.c`, lines 652-672.
-/

namespace EvCache.Lats

open CArray FreqTable

/-! ## Model -/

/-- `qsort(arr, cnt, sizeof(i32), compare_lats)`: ascending order. -/
def sortLats (xs : List ℤ) : List ℤ := xs.mergeSort fun a b => decide (a ≤ b)

/-- The `i32` sum `a + b` of two `i32` values, wrapped around in two's complement as the
compiled addition does; the overflow itself is undefined in C. -/
def addI32 (a b : ℤ) : ℤ := Int.bmod (a + b) (2 ^ 32)

/-- A sum within the range of an `i32` does not wrap. -/
lemma addI32_of_lt {a b : ℤ} (h₀ : -2 ^ 31 ≤ a + b) (h₁ : a + b < 2 ^ 31) :
    addI32 a b = a + b := by
  apply Int.bmod_eq_of_le <;> omega

/-- Two entries of `2 ^ 31 - 1`: the sum wraps to `-2`. -/
example : addI32 2147483647 2147483647 = -2 := by decide

/-- `calc_median(nums_arr, cnt)` (`lats.c:20`), on the first `cnt` entries of `nums_arr`. -/
def calcMedian (nums_arr : List ℤ) (cnt : ℕ) : ℤ :=
  if cnt = 0 then -1
  else if cnt = 1 then nums_arr.getD 0 0
  else
    let s := sortLats (nums_arr.take cnt)
    if cnt % 2 = 1 then s.getD (cnt / 2) 0
    else (addI32 (s.getD (cnt / 2) 0) (s.getD (cnt / 2 - 1) 0)).tdiv 2

/-- The test `arr[i] > 0 && arr[i] <= max_ways` of `calc_min_cluster` (`lats.c:57`). -/
def validSize (max_ways : ℕ) (v : ℤ) : Bool := decide (0 < v ∧ v ≤ max_ways)

/-- The body of the search `if (freqs[i] >= min_freq) if (best_val == -1 || vals[i] <
best_val) best_val = vals[i];` (`lats.c:98-102`). -/
def bestStep (min_freq : ℕ) (t : Table ℤ) (best_val : ℤ) (i : ℕ) : ℤ :=
  if min_freq ≤ t.freqs.getD i 0 then
    if best_val = -1 ∨ t.vals.getD i 0 < best_val then t.vals.getD i 0 else best_val
  else best_val

/-- The search for the smallest value of frequency at least `min_freq` over the entries of the
table in use (`lats.c:96-104`), `-1` for none. -/
def bestVal (min_freq : ℕ) (t : Table ℤ) : ℤ :=
  (List.range t.num_vals).foldl (bestStep min_freq t) (-1)

/-- `calc_min_cluster(arr, cnt)` (`lats.c:45`), with `max_ways` for `l3_info.n_ways`. -/
def calcMinCluster (max_ways : ℕ) (arr : List ℤ) : Except Fault ℤ :=
  if arr.length = 0 then pure (-1)
  else if arr.length = 1 then pure (arr.getD 0 0)
  else
    let cleaned := (sortLats arr).filter (validSize max_ways)
    let clean_len := cleaned.length
    if clean_len = 0 then pure (-1)
    else do
      let t ← cleaned.foldlM Table.insert (empty 0 32)
      let best_val := bestVal (clean_len * 5 % 2 ^ 32 / 100) t
      -- the median of the valid sizes when no size is frequent enough
      if best_val = -1 then
        pure (if clean_len % 2 = 1 then cleaned.getD (clean_len / 2) 0
          else (addI32 (cleaned.getD (clean_len / 2) 0)
            (cleaned.getD (clean_len / 2 - 1) 0)).tdiv 2)
      else pure best_val

/-- The `i32` that a `u64` latency becomes when it is stored in an `i32` array. -/
def toI32 (lat : ℕ) : ℤ :=
  if lat % 2 ^ 32 < 2 ^ 31 then (lat % 2 ^ 32 : ℕ) else (lat % 2 ^ 32 : ℕ) - 2 ^ 32

/-- The latencies a measurement loop keeps, in the order of the trials: those whose trial
passes `keep`. -/
def keptLats (keep : ℕ × Bool → Bool) (trials : List (ℕ × Bool)) : List ℤ :=
  trials.filterMap fun tr => if keep tr then some (toI32 tr.1) else none

/-- `g_lats.dram` after `init_dram_lat(reps)` (`lats.c:122`), the `reps` trials given: the
kept latencies at the front of the zeroed `lats_arr[reps]`, and the median of all `reps`
entries when more than half the trials are kept, `-1` otherwise. -/
def initDramLat (trials : List (ℕ × Bool)) : ℤ :=
  let lats := keptLats (fun tr => tr.2) trials
  let lats_arr := lats ++ List.replicate (trials.length - lats.length) 0
  if trials.length / 2 < lats.length then calcMedian lats_arr trials.length else -1

/-- `g_lats.l2` after `init_l2_lat(reps)` (`lats.c:179`), the `reps` trials given: the median
of the `lat_cnt` latencies kept, those on one core and below `interrupt_thresh`, unless fewer
than half the trials are kept. -/
def initL2Lat (interrupt_thresh : ℕ) (trials : List (ℕ × Bool)) : ℤ :=
  let lats := keptLats (fun tr => tr.2 && decide (tr.1 < interrupt_thresh)) trials
  if lats.length < trials.length / 2 then -1 else calcMedian lats lats.length

/-! ## Sorting -/

lemma sortLats_perm (xs : List ℤ) : (sortLats xs).Perm xs := List.mergeSort_perm _ _

lemma sortLats_sorted (xs : List ℤ) : (sortLats xs).Pairwise (· ≤ ·) := by
  have h : (sortLats xs).Pairwise fun a b => decide (a ≤ b) = true :=
    List.pairwise_mergeSort
      (fun a b c hab hbc => by simp only [decide_eq_true_eq] at *; exact le_trans hab hbc)
      (fun a b => by simpa using le_total a b) xs
  exact h.imp fun hab => by simpa using hab

/-! ## The search of the table -/

section Search

variable (min_freq : ℕ) (t : Table ℤ)

/-- The values of the entries before `k` whose frequency reaches `min_freq`. -/
def frequentBefore (k : ℕ) : Set ℤ :=
  {a | ∃ i < k, min_freq ≤ t.freqs.getD i 0 ∧ t.vals.getD i 0 = a}

/-- What the search has found after the entries before `k`: `-1` when none of them is frequent
enough, else the least frequent-enough value among them. -/
def SearchInv (k : ℕ) (best_val : ℤ) : Prop :=
  (best_val = -1 ∧ ∀ i < k, t.freqs.getD i 0 < min_freq) ∨
    IsLeast (frequentBefore min_freq t k) best_val

lemma mem_frequentBefore_succ {k : ℕ} {a : ℤ} :
    a ∈ frequentBefore min_freq t (k + 1) ↔
      a ∈ frequentBefore min_freq t k ∨ (min_freq ≤ t.freqs.getD k 0 ∧ t.vals.getD k 0 = a) := by
  simp only [frequentBefore, Set.mem_ofPred_eq]
  constructor
  · rintro ⟨i, hi, hq, rfl⟩
    rcases Nat.lt_succ_iff_lt_or_eq.mp hi with hi | rfl
    · exact .inl ⟨i, hi, hq, rfl⟩
    · exact .inr ⟨hq, rfl⟩
  · rintro (⟨i, hi, hq, rfl⟩ | ⟨hq, rfl⟩)
    · exact ⟨i, Nat.lt_succ_of_lt hi, hq, rfl⟩
    · exact ⟨k, Nat.lt_succ_self k, hq, rfl⟩

variable {min_freq t}

/-- **One entry of the search keeps its invariant**, when the values before it are positive, so
that none of them is the sentinel `-1`. -/
lemma SearchInv.step {k : ℕ} {best_val : ℤ} (hpos : ∀ i ≤ k, 0 < t.vals.getD i 0)
    (h : SearchInv min_freq t k best_val) :
    SearchInv min_freq t (k + 1) (bestStep min_freq t best_val k) := by
  unfold bestStep
  by_cases hq : min_freq ≤ t.freqs.getD k 0
  · rw [if_pos hq]
    rcases h with ⟨rfl, hnone⟩ | ⟨hmem, hlow⟩
    · -- the first frequent entry
      rw [if_pos (.inl rfl)]
      refine .inr ⟨(mem_frequentBefore_succ min_freq t).mpr (.inr ⟨hq, rfl⟩), fun a ha => ?_⟩
      rcases (mem_frequentBefore_succ min_freq t).mp ha with ⟨i, hi, hqi, -⟩ | ⟨-, rfl⟩
      · exact absurd hqi (Nat.not_le.mpr (hnone i hi))
      · exact le_rfl
    · -- a value found before is positive, so it is not the sentinel
      obtain ⟨i, hi, hqi, hbest⟩ := hmem
      have hne : best_val ≠ -1 := by
        have := hpos i hi.le
        omega
      by_cases hlt : t.vals.getD k 0 < best_val
      · rw [if_pos (.inr hlt)]
        refine .inr ⟨(mem_frequentBefore_succ min_freq t).mpr (.inr ⟨hq, rfl⟩), fun a ha => ?_⟩
        rcases (mem_frequentBefore_succ min_freq t).mp ha with ha | ⟨-, rfl⟩
        · exact le_of_lt (lt_of_lt_of_le hlt (hlow ha))
        · exact le_rfl
      · rw [if_neg (not_or.mpr ⟨hne, hlt⟩)]
        refine .inr ⟨(mem_frequentBefore_succ min_freq t).mpr (.inl ⟨i, hi, hqi, hbest⟩),
          fun a ha => ?_⟩
        rcases (mem_frequentBefore_succ min_freq t).mp ha with ha | ⟨-, rfl⟩
        · exact hlow ha
        · exact Int.not_lt.mp hlt
  · rw [if_neg hq]
    have hset : frequentBefore min_freq t (k + 1) = frequentBefore min_freq t k := by
      ext a
      rw [mem_frequentBefore_succ]
      exact ⟨fun ha => ha.elim id fun h' => absurd h'.1 hq, .inl⟩
    rcases h with ⟨rfl, hnone⟩ | hleast
    · refine .inl ⟨rfl, fun i hi => ?_⟩
      rcases Nat.lt_succ_iff_lt_or_eq.mp hi with hi | rfl
      · exact hnone i hi
      · exact Nat.not_le.mp hq
    · exact .inr (hset ▸ hleast)

variable (min_freq t)

/-- The search over all the entries in use keeps its invariant. -/
lemma searchInv_bestVal (hpos : ∀ i < t.num_vals, 0 < t.vals.getD i 0) :
    SearchInv min_freq t t.num_vals (bestVal min_freq t) := by
  have hrun : ∀ k ≤ t.num_vals,
      SearchInv min_freq t k ((List.range k).foldl (bestStep min_freq t) (-1)) := by
    intro k
    induction k with
    | zero => exact fun _ => .inl ⟨rfl, fun i hi => absurd hi (Nat.not_lt_zero i)⟩
    | succ k ih =>
      intro hk
      rw [foldl_range_succ]
      exact (ih (Nat.le_of_succ_le hk)).step fun i hi => hpos i (by omega)
  exact hrun _ le_rfl

variable {min_freq t} {cap : ℕ} {xs : List ℤ}

/-- Over a table that counts `xs`, the frequent-enough values of the entries in use are the
values of `xs` that occur at least `min_freq` times. -/
lemma frequentBefore_eq_of_counts (h : Counts cap xs t) (min_freq : ℕ) :
    frequentBefore min_freq t t.num_vals = {a | a ∈ xs ∧ min_freq ≤ xs.count a} := by
  ext a
  simp only [frequentBefore, Set.mem_ofPred_eq]
  constructor
  · rintro ⟨i, hi, hq, rfl⟩
    exact ⟨h.getD_mem hi 0, h.freq i hi _ (h.getElem?_of_lt hi 0) ▸ hq⟩
  · rintro ⟨ha, hq⟩
    obtain ⟨i, hi, hia⟩ := List.getElem_of_mem ((h.mem_iff a).mpr ha)
    have hin : i < t.num_vals := by rw [h.length_take] at hi; exact hi
    have hval : t.vals.getD i 0 = a := by
      have := h.getElem?_of_lt hin 0
      rw [← List.getElem?_take_of_lt hin, List.getElem?_eq_getElem hi, hia] at this
      exact (Option.some.inj this).symm
    exact ⟨i, hin, h.freq i hin _ (h.getElem?_of_lt hin 0) ▸ hval ▸ hq, hval⟩

/-- **The search finds the least frequent-enough value** of a table that counts positive
values, when there is one. -/
lemma bestVal_isLeast (h : Counts cap xs t) (hpos : ∀ a ∈ xs, 0 < a)
    (hex : ∃ a ∈ xs, min_freq ≤ xs.count a) :
    IsLeast {a | a ∈ xs ∧ min_freq ≤ xs.count a} (bestVal min_freq t) := by
  rcases searchInv_bestVal min_freq t fun i hi => hpos _ (h.getD_mem hi 0) with
    ⟨-, hnone⟩ | hleast
  · -- a frequent-enough value sits in some entry, which the search has seen
    obtain ⟨a, ha, hq⟩ := hex
    obtain ⟨i, hi, -, rfl⟩ := (frequentBefore_eq_of_counts h min_freq).symm ▸ (show a ∈ {a | a ∈ xs ∧ min_freq ≤ xs.count a} from ⟨ha, hq⟩)
    exact absurd hq (Nat.not_le.mpr (h.freq i hi _ (h.getElem?_of_lt hi 0) ▸ hnone i hi))
  · rwa [frequentBefore_eq_of_counts h] at hleast

end Search

/-! ## `calc_min_cluster` -/

section MinCluster

variable {max_ways : ℕ} {arr : List ℤ}

/-- The valid sizes are at most `max_ways` distinct values. -/
lemma card_toFinset_filter_validSize_le (max_ways : ℕ) (arr : List ℤ) :
    (arr.filter (validSize max_ways)).toFinset.card ≤ max_ways := by
  have hsub : (arr.filter (validSize max_ways)).toFinset ⊆ Finset.Icc 1 (max_ways : ℤ) := by
    intro a ha
    simp only [List.mem_toFinset, List.mem_filter, validSize, decide_eq_true_eq] at ha
    simp only [Finset.mem_Icc]
    omega
  calc _ ≤ (Finset.Icc 1 (max_ways : ℤ)).card := Finset.card_le_card hsub
    _ = max_ways := by simp

/-- The valid sizes of the sorted array are those of the array, permuted. -/
lemma cleaned_perm (max_ways : ℕ) (arr : List ℤ) :
    ((sortLats arr).filter (validSize max_ways)).Perm (arr.filter (validSize max_ways)) :=
  (sortLats_perm arr).filter _

lemma pos_of_mem_cleaned {a : ℤ} (ha : a ∈ (sortLats arr).filter (validSize max_ways)) :
    0 < a := by
  simp only [List.mem_filter, validSize, decide_eq_true_eq] at ha
  exact ha.2.1

/-- `calc_min_cluster` on two entries or more with a valid one: the table, then the search or
the median. -/
lemma calcMinCluster_of_valid (hlen : 2 ≤ arr.length)
    (hne : (sortLats arr).filter (validSize max_ways) ≠ []) :
    calcMinCluster max_ways arr = (do
      let t ← ((sortLats arr).filter (validSize max_ways)).foldlM Table.insert (empty 0 32)
      let best_val := bestVal (((sortLats arr).filter (validSize max_ways)).length * 5 % 2 ^ 32 / 100) t
      if best_val = -1 then
        pure (if ((sortLats arr).filter (validSize max_ways)).length % 2 = 1 then
            ((sortLats arr).filter (validSize max_ways)).getD
              (((sortLats arr).filter (validSize max_ways)).length / 2) 0
          else (addI32 (((sortLats arr).filter (validSize max_ways)).getD
              (((sortLats arr).filter (validSize max_ways)).length / 2) 0)
            (((sortLats arr).filter (validSize max_ways)).getD
              (((sortLats arr).filter (validSize max_ways)).length / 2 - 1) 0)).tdiv 2)
      else pure best_val) := by
  rw [calcMinCluster, if_neg (by omega), if_neg (by omega)]
  exact if_neg (List.length_pos_iff.mpr hne).ne'

/-- **`calc_min_cluster` returns the least frequent-enough size.** On two entries or more with
at most 32 distinct valid sizes, one of which reaches `min_freq = ⌊5 · clean_len / 100⌋`, it
returns the least valid size of the array that at least `min_freq` entries have. -/
lemma calcMinCluster_eq_least (hlen : 2 ≤ arr.length)
    (hdistinct : (arr.filter (validSize max_ways)).toFinset.card ≤ 32)
    (hwrap : (arr.filter (validSize max_ways)).length * 5 < 2 ^ 32)
    (hfreq : ∃ a ∈ arr, validSize max_ways a ∧
      (arr.filter (validSize max_ways)).length * 5 / 100 ≤ arr.count a) :
    ∃ b, calcMinCluster max_ways arr = .ok b ∧
      IsLeast {a | a ∈ arr ∧ validSize max_ways a ∧
        (arr.filter (validSize max_ways)).length * 5 / 100 ≤ arr.count a} b := by
  have hperm := cleaned_perm max_ways arr
  obtain ⟨a₀, ha₀, hv₀, hq₀⟩ := hfreq
  have ha₀c : a₀ ∈ (sortLats arr).filter (validSize max_ways) :=
    hperm.symm.subset (List.mem_filter.mpr ⟨ha₀, hv₀⟩)
  obtain ⟨t, ht, hcounts⟩ := foldlM_insert_ok ((sortLats arr).filter (validSize max_ways)) []
    (empty 0 32) (counts_empty 0 32) (by rwa [List.nil_append, List.toFinset_eq_of_perm _ _ hperm])
  rw [List.nil_append] at hcounts
  -- the frequent-enough sizes of the cleaned array are those of the array
  have hmin : ((sortLats arr).filter (validSize max_ways)).length * 5 % 2 ^ 32 / 100 =
      (arr.filter (validSize max_ways)).length * 5 / 100 := by
    rw [hperm.length_eq, Nat.mod_eq_of_lt hwrap]
  have hset : {a | a ∈ (sortLats arr).filter (validSize max_ways) ∧
        ((sortLats arr).filter (validSize max_ways)).length * 5 % 2 ^ 32 / 100 ≤
          ((sortLats arr).filter (validSize max_ways)).count a} =
      {a | a ∈ arr ∧ validSize max_ways a ∧
        (arr.filter (validSize max_ways)).length * 5 / 100 ≤ arr.count a} := by
    ext a
    simp only [Set.mem_ofPred_eq, hmin, hperm.count_eq, hperm.mem_iff, List.mem_filter]
    constructor
    · rintro ⟨⟨ha, hv⟩, hq⟩
      exact ⟨ha, hv, List.count_filter hv ▸ hq⟩
    · rintro ⟨ha, hv, hq⟩
      exact ⟨⟨ha, hv⟩, (List.count_filter hv).symm ▸ hq⟩
  have hleast : IsLeast {a | a ∈ (sortLats arr).filter (validSize max_ways) ∧
      ((sortLats arr).filter (validSize max_ways)).length * 5 % 2 ^ 32 / 100 ≤
        ((sortLats arr).filter (validSize max_ways)).count a}
      (bestVal (((sortLats arr).filter (validSize max_ways)).length * 5 % 2 ^ 32 / 100) t) :=
    bestVal_isLeast hcounts (fun a ha => pos_of_mem_cleaned ha)
      ⟨a₀, ha₀c, by rw [hmin, hperm.count_eq, List.count_filter hv₀]; exact hq₀⟩
  have hbpos := pos_of_mem_cleaned hleast.1.1
  refine ⟨_, ?_, hset ▸ hleast⟩
  rw [calcMinCluster_of_valid hlen (List.ne_nil_of_mem ha₀c), ht, ok_bind]
  exact if_neg (by omega)

/-- **With at most 20 ways `calc_min_cluster` never falls back to the median.** For an LLC of
at most 20 ways and an array of two entries or more with a valid size, `calc_min_cluster`
returns the least valid size of the array that at least `⌊5 · clean_len / 100⌋` of the valid
entries have: at most 20 distinct sizes are valid, so one of them reaches `⌊clean_len / 20⌋`.

**Proof sketch.** The valid sizes lie in `[1, max_ways]`, so they are at most 20 distinct
values; `FreqTable.exists_count_ge` gives one with `⌊clean_len / 20⌋` entries, which is the
threshold, and `calcMinCluster_eq_least` applies. -/
theorem calcMinCluster_of_nWays_le_twenty (hw : max_ways ≤ 20) (hlen : 2 ≤ arr.length)
    (hvalid : ∃ a ∈ arr, validSize max_ways a) (hwrap : arr.length * 5 < 2 ^ 32) :
    ∃ b, calcMinCluster max_ways arr = .ok b ∧
      IsLeast {a | a ∈ arr ∧ validSize max_ways a ∧
        (arr.filter (validSize max_ways)).length * 5 / 100 ≤ arr.count a} b := by
  have hcard := card_toFinset_filter_validSize_le max_ways arr
  have hle : (arr.filter (validSize max_ways)).length ≤ arr.length := List.length_filter_le _ _
  obtain ⟨a₀, ha₀, hv₀⟩ := hvalid
  -- the pigeonhole bound over the valid entries
  obtain ⟨a, ha, hq⟩ := FreqTable.exists_count_ge (arr.filter (validSize max_ways))
    (le_trans hcard hw) (List.ne_nil_of_mem (List.mem_filter.mpr ⟨ha₀, hv₀⟩))
  obtain ⟨ha, hva⟩ := List.mem_filter.mp ha
  have hshare : (arr.filter (validSize max_ways)).length * 5 / 100 =
      (arr.filter (validSize max_ways)).length / 20 := by omega
  exact calcMinCluster_eq_least hlen (le_trans hcard (by omega)) (by omega)
    ⟨a, ha, hva, hshare ▸ List.count_filter hva ▸ hq⟩

/-- A 16-way LLC and five sizes, two of them invalid: the least frequent-enough size is `11`. -/
theorem calcMinCluster_of_nWays_le_twenty_sixteen :
    ∃ b, calcMinCluster 16 [0, 12, 11, 11, 40] = .ok b ∧
      IsLeast {a | a ∈ [0, 12, 11, 11, 40] ∧ validSize 16 a ∧
        ([0, 12, 11, 11, 40].filter (validSize 16)).length * 5 / 100 ≤
          [0, 12, 11, 11, 40].count a} b :=
  calcMinCluster_of_nWays_le_twenty (by decide) (by decide) (by decide) (by decide)

/-- **`calc_min_cluster` writes past its table exactly when more than 32 sizes are valid.** On
two entries or more, the run faults if and only if the array has more than 32 distinct sizes
in `(0, max_ways]`; so it never faults for an LLC of at most 32 ways. -/
theorem calcMinCluster_error_iff (hlen : 2 ≤ arr.length) :
    (∃ e, calcMinCluster max_ways arr = .error e) ↔
      32 < (arr.filter (validSize max_ways)).toFinset.card := by
  have hperm := cleaned_perm max_ways arr
  have hset := List.toFinset_eq_of_perm _ _ hperm
  constructor
  · rintro ⟨e, he⟩
    by_contra hcard
    by_cases hne : (sortLats arr).filter (validSize max_ways) = []
    · rw [calcMinCluster, if_neg (by omega), if_neg (by omega)] at he
      simp [hne] at he
    · obtain ⟨t, ht, -⟩ := foldlM_insert_ok ((sortLats arr).filter (validSize max_ways)) []
        (empty 0 32) (counts_empty 0 32) (by rw [List.nil_append, hset]; omega)
      rw [calcMinCluster_of_valid hlen hne, ht, ok_bind] at he
      dsimp only at he
      split_ifs at he <;> simp at he
  · intro hcard
    have hne : (sortLats arr).filter (validSize max_ways) ≠ [] := by
      intro hnil
      rw [hnil, List.toFinset_nil] at hset
      rw [← hset] at hcard
      simp at hcard
    obtain ⟨e, he⟩ := foldlM_insert_error ((sortLats arr).filter (validSize max_ways)) []
      (empty 0 32) (counts_empty 0 32) (by rwa [List.nil_append, hset])
    exact ⟨e, by rw [calcMinCluster_of_valid hlen hne, he, error_bind]⟩

/-- A 40-way LLC and the 33 sizes `1, ..., 33`: the run faults. -/
theorem calcMinCluster_error_iff_forty :
    (∃ e, calcMinCluster 40 ((List.range 33).map fun i => (i : ℤ) + 1) = .error e) ↔
      32 < (((List.range 33).map fun i => (i : ℤ) + 1).filter (validSize 40)).toFinset.card :=
  calcMinCluster_error_iff (by simp)

end MinCluster

/-! ## The DRAM latency -/

section Dram

/-- A latency below `2 ^ 31` is stored as itself. -/
lemma toI32_of_lt {lat : ℕ} (h : lat < 2 ^ 31) : toI32 lat = lat := by
  have hmod : lat % 2 ^ 32 = lat := Nat.mod_eq_of_lt (by omega)
  rw [toI32, hmod, if_pos h]

lemma keptLats_bound {trials : List (ℕ × Bool)}
    (hlat : ∀ tr ∈ trials, tr.2 = true → 0 < tr.1 ∧ tr.1 < 2 ^ 30) :
    ∀ a ∈ keptLats (fun tr => tr.2) trials, 0 < a ∧ a < 2 ^ 30 := by
  intro a ha
  obtain ⟨tr, htr, hsome⟩ := List.mem_filterMap.mp ha
  by_cases hk : tr.2 = true
  · rw [if_pos hk, Option.some.injEq] at hsome
    obtain ⟨h0, h30⟩ := hlat tr htr hk
    rw [← hsome, toI32_of_lt (by omega)]
    exact ⟨by exact_mod_cast h0, by exact_mod_cast h30⟩
  · rw [if_neg hk] at hsome
    cases hsome

/-- An entry of a list of values in `(0, 2 ^ 30)`, or the default `0`. -/
lemma getD_bound {S : List ℤ} (h : ∀ a ∈ S, 0 < a ∧ a < 2 ^ 30) (i : ℕ) :
    0 ≤ S.getD i 0 ∧ S.getD i 0 < 2 ^ 30 := by
  rw [List.getD_eq_getElem?_getD]
  cases hi : S[i]? with
  | none => simp
  | some a =>
    have := h a (List.mem_of_getElem? hi)
    rw [Option.getD_some]
    omega

/-- Zeros below positive values: the sort puts them first. -/
lemma sortLats_append_zeros {xs : List ℤ} (hpos : ∀ a ∈ xs, 0 < a) (z : ℕ) :
    sortLats (xs ++ List.replicate z 0) = List.replicate z 0 ++ sortLats xs := by
  have hperm : (sortLats (xs ++ List.replicate z 0)).Perm (List.replicate z 0 ++ sortLats xs) :=
    (sortLats_perm _).trans (List.perm_append_comm.trans ((sortLats_perm xs).symm.append_left _))
  have hsorted : (List.replicate z 0 ++ sortLats xs).Pairwise (· ≤ ·) := by
    rw [List.pairwise_append]
    refine ⟨List.pairwise_replicate.mpr (.inr le_rfl), sortLats_sorted xs, fun a ha b hb => ?_⟩
    rw [List.eq_of_mem_replicate ha]
    exact (hpos b ((sortLats_perm xs).subset hb)).le
  exact hperm.eq_of_pairwise (fun _ _ _ _ hab hba => le_antisymm hab hba) (sortLats_sorted _)
    hsorted

lemma getD_replicate_append {z i : ℕ} (hi : z ≤ i) (S : List ℤ) :
    (List.replicate z 0 ++ S).getD i 0 = S.getD (i - z) 0 := by
  rw [List.getD_eq_getElem?_getD, List.getElem?_append_right (by simpa using hi),
    List.length_replicate, List.getD_eq_getElem?_getD]

/-- **Each rejected trial enters the DRAM median as a latency of `0`.** When more than half of
the `reps` trials stay on one core, and their latencies are positive and below `2 ^ 30`, so that
the `i32` sum of two of them does not wrap, `init_dram_lat` leaves in `g_lats.dram` the entry
of rank `reps / 2 - z` of the sorted kept latencies, `z = reps - lat_cnt` the number of
rejected trials (the truncated mean of the entries of ranks `reps / 2 - z` and
`reps / 2 - 1 - z` for even `reps`), where the median of the kept latencies has rank
`lat_cnt / 2`.

**Proof sketch.** The `reps - lat_cnt` zeros of `lats_arr` sort before the positive kept
latencies (`sortLats_append_zeros`), so the middle entries of the sorted array are kept
latencies `z` ranks further down, and their sum stays below `2 ^ 31`. -/
theorem initDramLat_eq_rank {trials : List (ℕ × Bool)}
    (hkept : trials.length / 2 < (keptLats (fun tr => tr.2) trials).length)
    (hlat : ∀ tr ∈ trials, tr.2 = true → 0 < tr.1 ∧ tr.1 < 2 ^ 30) :
    let S := sortLats (keptLats (fun tr => tr.2) trials)
    let z := trials.length - (keptLats (fun tr => tr.2) trials).length
    initDramLat trials =
      if trials.length % 2 = 1 then S.getD (trials.length / 2 - z) 0
      else (S.getD (trials.length / 2 - z) 0 + S.getD (trials.length / 2 - 1 - z) 0).tdiv 2 := by
  intro S z
  have hle : (keptLats (fun tr => tr.2) trials).length ≤ trials.length :=
    List.length_filterMap_le _ _
  have hlen : ((keptLats (fun tr => tr.2) trials) ++ List.replicate z 0).length =
      trials.length := by
    simp only [List.length_append, List.length_replicate, z]
    omega
  have hkb := keptLats_bound hlat
  have hS : ∀ a ∈ sortLats (keptLats (fun tr => tr.2) trials), 0 < a ∧ a < 2 ^ 30 :=
    fun a ha => hkb a ((sortLats_perm _).subset ha)
  unfold initDramLat calcMedian
  dsimp only
  rw [if_pos hkept, if_neg (by omega),
    show trials.length - (keptLats (fun tr => tr.2) trials).length = z from rfl]
  by_cases h1 : trials.length = 1
  · -- one trial, kept
    obtain ⟨x, hx⟩ : ∃ x, keptLats (fun tr => tr.2) trials = [x] :=
      List.length_eq_one_iff.mp (by omega)
    simp [S, z, h1, hx, sortLats]
  · rw [if_neg h1, List.take_of_length_le hlen.le,
      sortLats_append_zeros fun a ha => (hkb a ha).1]
    split_ifs with hodd
    · rw [getD_replicate_append (by omega)]
    · -- the two middle entries are kept latencies, whose sum fits an `i32`
      rw [getD_replicate_append (by omega), getD_replicate_append (by omega)]
      have h₁ := getD_bound hS (trials.length / 2 - z)
      have h₂ := getD_bound hS (trials.length / 2 - 1 - z)
      rw [addI32_of_lt (by omega) (by omega)]

/-- Five trials, one rejected: the DRAM latency is the entry of rank `2 - 1` of the four kept
ones. -/
theorem initDramLat_eq_rank_five :
    initDramLat [(300, true), (310, true), (320, true), (330, true), (999, false)] =
      if 5 % 2 = 1 then (sortLats (keptLats (fun tr => tr.2)
          [(300, true), (310, true), (320, true), (330, true), (999, false)])).getD
        (5 / 2 - (5 - (keptLats (fun tr => tr.2)
          [(300, true), (310, true), (320, true), (330, true), (999, false)]).length)) 0
      else ((sortLats (keptLats (fun tr => tr.2)
          [(300, true), (310, true), (320, true), (330, true), (999, false)])).getD
        (5 / 2 - (5 - (keptLats (fun tr => tr.2)
          [(300, true), (310, true), (320, true), (330, true), (999, false)]).length)) 0 +
        (sortLats (keptLats (fun tr => tr.2)
          [(300, true), (310, true), (320, true), (330, true), (999, false)])).getD
        (5 / 2 - 1 - (5 - (keptLats (fun tr => tr.2)
          [(300, true), (310, true), (320, true), (330, true), (999, false)]).length)) 0).tdiv 2 :=
  initDramLat_eq_rank (by decide) (by decide)

end Dram

end EvCache.Lats
