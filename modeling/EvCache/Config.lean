import Mathlib

set_option autoImplicit false

/-!
# The data model of eviction-set construction

The enumerations, the cache geometry and the build configuration of `include/config.h`,
`include/cache_info.h` and `include/evset.h`, with the two default configurations of
`src/evset.c`.

Machine integers are natural numbers (`u32`, `u64`) and integers (`i32`, `i64`); the values
the construction keeps in them stay far below `2^32`, so no wrap-around is modelled. Where a
source expression can go negative in an unsigned type, the definition says what happens.

## Main definitions

* `EvRes`, `EvTestRes` — the verdicts of the eviction tests.
* `CacheInfo`, `cacheUncertainty` — a cache level and its number of page-colour classes.
* `EvBuildConf`, `initDefL2Conf`, `initDefL3Conf` — the build configuration and its
  defaults.
* `EvSet` — an eviction set under construction.

## References

* `src/include/config.h`, `src/include/cache_info.h`, `src/include/evset.h`,
  `src/src/evset.c` (lines 746-838).
-/

namespace EvCache

/-- `EvRes` of `config.h`: the verdict of `test_eviction`. -/
inductive EvRes where
  | ok
  | fail
  deriving DecidableEq, Repr

/-- `EvTestRes` of `config.h`: the verdict of `test_eviction_detailed`, with its two unsure
values. -/
inductive EvTestRes where
  | evNeg
  | evNegUnsure
  | evPosUnsure
  | evPos
  deriving DecidableEq, Repr

/-- The C values of `EvTestRes`: `-2, -1, 1, 2`. -/
def EvTestRes.toInt : EvTestRes → ℤ
  | .evNeg => -2
  | .evNegUnsure => -1
  | .evPosUnsure => 1
  | .evPos => 2

/-- `PAGE_SIZE` of `common.h`. -/
def pageSize : ℕ := 4096

/-- `PAGE_SHIFT` of `common.h`. -/
def pageShift : ℕ := 12

/-- The part of `CacheInfo` (`cache_info.h`) the modelled functions read. -/
structure CacheInfo where
  cl_size : ℕ
  n_cl_bits : ℕ
  n_set_idx_bits : ℕ
  n_ways : ℕ
  n_slices : ℕ
  unknown_sib : ℤ
  deriving DecidableEq, Repr

/-- `cache_uncertainty` of `cache_info.h`: how many cache sets a page-offset-aligned line
can map to. The set-index bits a page offset fixes are `PAGE_SHIFT - n_cl_bits`, a `u64`
difference that wraps around when lines are larger than a page. -/
def cacheUncertainty (c : CacheInfo) : ℕ :=
  let set_bits_under_ctrl :=
    if c.n_cl_bits ≤ pageShift then pageShift - c.n_cl_bits
    else 2 ^ 64 - (c.n_cl_bits - pageShift)
  if c.n_set_idx_bits ≤ set_bits_under_ctrl then c.n_slices
  else 2 ^ (c.n_set_idx_bits - set_bits_under_ctrl) * c.n_slices

/-- The fields of `EvBuildConf` (`evset.h`) that the modelled functions read. The pointers
(`filter_ev`, `lower_ev`, `hctrl`) and the function pointers (`cand_traverse`, `test`) are
arguments of the models that use them. -/
structure EvBuildConf where
  cand_scale : ℕ
  lat_thresh : ℤ
  trials : ℕ
  low_bnd : ℕ
  upp_bnd : ℕ
  unsure_retry : ℕ
  test_scale : ℕ
  access_cnt : ℕ
  n_retries : ℕ
  max_whole_ret : ℕ
  need_helper : Bool
  flush_cands : Bool
  foreign_evictor : Bool
  cap_scaling : ℕ
  verify_retry : ℕ
  retry_timeout : ℕ
  max_backtrack : ℕ
  slack : ℕ
  extra_cong : ℕ
  deriving DecidableEq, Repr

/-- `init_def_l2_conf` (`evset.c:746`), given the `-c` argument `g_config.cand_scaling`
and the measured `g_lats.l2_thresh`. -/
def initDefL2Conf (cand_scaling : ℕ) (l2_thresh : ℤ) : EvBuildConf where
  cand_scale := if cand_scaling = 0 then 3 else cand_scaling
  lat_thresh := l2_thresh
  trials := 10
  low_bnd := 3
  upp_bnd := 7
  unsure_retry := 5
  test_scale := 1
  access_cnt := 3
  n_retries := 10
  max_whole_ret := 10
  need_helper := false
  flush_cands := false
  foreign_evictor := false
  cap_scaling := 2
  verify_retry := 5
  retry_timeout := 20
  max_backtrack := 20
  slack := 0
  extra_cong := 0

/-- `init_def_l3_conf` (`evset.c:794`), given `g_config.cand_scaling`, `g_lats.l3_thresh`
and the `n_retries` left in the static configuration, which this function does not set. -/
def initDefL3Conf (cand_scaling : ℕ) (l3_thresh : ℤ) (n_retries : ℕ) : EvBuildConf where
  cand_scale := if cand_scaling = 0 then 3 else cand_scaling
  lat_thresh := l3_thresh
  trials := 4
  low_bnd := 2
  upp_bnd := 2
  unsure_retry := 3
  test_scale := 1
  access_cnt := 1
  n_retries := n_retries
  max_whole_ret := 5
  need_helper := true
  flush_cands := false
  foreign_evictor := false
  cap_scaling := 2
  verify_retry := 10
  retry_timeout := 1000
  max_backtrack := 20
  slack := 2
  extra_cong := 0

/-- An `EvSet` (`evset.h`) over addresses of type `α`: the `ev_cap` slots of `addrs`, of
which the first `size` are the set, and its target. The candidate pool it points to is
shared with its builder and is threaded through the models separately. -/
structure EvSet (α : Type) where
  addrs : List α
  size : ℕ
  ev_cap : ℕ
  target_addr : α
  build_conf : EvBuildConf
  target_cache : CacheInfo
  deriving DecidableEq, Repr

/-- The addresses of an eviction set: `addrs[0..size)`. -/
def EvSet.lines {α : Type} (ev : EvSet α) : List α := ev.addrs.take ev.size

end EvCache
