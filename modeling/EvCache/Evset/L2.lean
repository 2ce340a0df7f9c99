import EvCache.Evset.ZhaoSafety

set_option autoImplicit false

/-!
# `build_l2_evset`: one eviction set for every uncertain L2 set

`build_l2_evset(num_sets)` of `src/evset.c` builds, for `u` of the `2^unknown_sib` L2 sets
a page offset cannot tell apart, an eviction set with `build_evset_zhao`, and shifts each
one to the other `PAGE_SIZE / cl_size` line offsets of its pages. The sets share one
candidate pool: each target is taken out of it (`pick_l2_target`), and so are the lines of
each set built. A target for a later set must not be evicted by the lines of the earlier
ones. The group is then checked (`validate_l2_evsets`) and, if it fails, the whole
procedure starts again with a fresh pool, up to `max_whole_ret` times.

## Model

Addresses (`u8 *`) are natural numbers, `0` standing for `NULL`: every `NULL` test of the
source is kept. An `EvSet *` that may be `NULL` is an `Option (EvSet ℕ)`. The timing test
`test_eviction_detailed` is a function of a state `σ`, as in `EvCache.Evset.Test`, and
`evcands_populate` is the pool `pools k` of the `k`-th whole attempt (`none` when it
fails). Allocations succeed. `verbose` is the global `i32` of `config.h`; the `debug` level
and the timing only reach `printf`, `srand` and `rand`, which decide nothing, and are left
out.

## Main definitions

* `EvCache.pickL2Target` — `pick_l2_target`.
* `EvCache.validateL2Evsets` — `validate_l2_evsets`.
* `EvCache.buildSingleL2Evset` — `build_single_l2_evset`.
* `EvCache.evsetShift` — `evset_shift`.
* `EvCache.buildL2Evset` — `build_l2_evset`.

## References

* `src/src/evset.c`, lines 554-562 (`verify_evset`), 636-665 (`evset_shift`), 966-1149 and
  1151-1537 (`build_l2_evset`).
-/

namespace EvCache

open CArray

variable {σ : Type}

/-! ## Targets and group validation -/

section Tests

variable (detailed : σ → ℕ → List ℕ → EvTestRes × σ)

/-- `addr_in_list`. -/
def addrInList (addr : ℕ) (addrs : List ℕ) : Bool := addrs.contains addr

/-- The scan of `pick_l2_target` (`evset.c:983-996`), from index `j`: the first candidate
that is not the current target, not one of `prev_addrs`, and, when there are previous
addresses, not evicted by them (`EV_NEG`). It returns the index and the candidate. -/
def pickScan (current_target : ℕ) (prev_addrs : List ℕ) :
    List ℕ → ℕ → σ → Option (ℕ × ℕ) × σ
  | [], _, st => (none, st)
  | candidate :: rest, j, st =>
    if candidate = current_target ∨ addrInList candidate prev_addrs = true then
      pickScan current_target prev_addrs rest (j + 1) st
    else if prev_addrs ≠ [] then
      let (res, st') := detailed st candidate prev_addrs
      if res ≠ .evNeg then pickScan current_target prev_addrs rest (j + 1) st'
      else (some (j, candidate), st')
    else (some (j, candidate), st)

/-- `pick_l2_target(cands, current_target, prev_addrs, n_prev_addrs, conf, &target)`
(`evset.c:976`): the target found by the scan, and the pool with it swapped to the end and
dropped. -/
def pickL2Target (st : σ) (cands : List ℕ) (current_target : ℕ) (prev_addrs : List ℕ) :
    Option (ℕ × List ℕ) × σ :=
  match pickScan detailed current_target prev_addrs cands 0 st with
  | (some (j, target), st') =>
    (some (target, (exch cands j (cands.length - 1)).take (cands.length - 1)), st')
  | (none, st') => (none, st')

/-- `verify_evset(evset, target)` (`evset.c:554`): a `NULL` target fails; otherwise the set
`addrs[0..size)` is tested against it. -/
def verifyEvset (st : σ) (evset : EvSet ℕ) (target : ℕ) : EvRes × σ :=
  if target = 0 then (.fail, st) else testEviction detailed st target evset.lines

/-- The self-test loop of `validate_l2_evsets` (`evset.c:1006-1013`): every set is there,
has a target, and evicts it. -/
def validateSelf : List (Option (EvSet ℕ)) → σ → Bool × σ
  | [], st => (true, st)
  | none :: _, st => (false, st)
  | some ev :: rest, st =>
    if ev.target_addr = 0 then (false, st) else
      let (res, st') := verifyEvset detailed st ev ev.target_addr
      if res = .fail then (false, st') else validateSelf rest st'

/-- The inner loop of the independence check (`evset.c:1016-1026`): the targets of the
later sets are not evicted (`EV_NEG`) by the set `ev`. -/
def validateAgainst (ev : EvSet ℕ) : List (EvSet ℕ) → σ → Bool × σ
  | [], st => (true, st)
  | ev' :: rest, st =>
    let (res, st') := detailed st ev'.target_addr ev.lines
    if res ≠ .evNeg then (false, st') else validateAgainst ev rest st'

/-- The independence check (`evset.c:1015-1027`), for the pairs `i < j` only. -/
def validatePairs : List (EvSet ℕ) → σ → Bool × σ
  | [], st => (true, st)
  | ev :: rest, st =>
    let (ok, st') := validateAgainst detailed ev rest st
    if ok then validatePairs rest st' else (false, st')

/-- `validate_l2_evsets(evsets, count, conf)` (`evset.c:1001`). The independence check
runs only once the self-test has found every set, so it ranges over the sets
themselves. -/
def validateL2Evsets (st : σ) (evsets : List (Option (EvSet ℕ))) : Bool × σ :=
  if evsets = [] then (false, st) else
    let (ok, st') := validateSelf detailed evsets st
    if ok then validatePairs detailed (evsets.filterMap id) st' else (false, st')

end Tests

/-! ## One eviction set -/

section Single

variable (detailed : σ → ℕ → List ℕ → EvTestRes × σ) (l2 : CacheInfo)

/-- The checks after one build of `build_single_l2_evset` (`evset.c:1101-1135`): `true` when
the builder failed, the set does not have `n_ways` lines, or it does not evict its target.
The size check short-circuits the verification. -/
def singleFailed (out : ZhaoOut σ ℕ) (curr_target : ℕ) : Bool × σ :=
  if out.has_err then (true, out.st)
  else if out.evset.size ≠ l2.n_ways then (true, out.st)
  else
    let (res, st) := verifyEvset detailed out.st out.evset curr_target
    (decide (res = .fail), st)

/-- The retry loop of `build_single_l2_evset` (`evset.c:1094-1138`), with `n_ret` attempts
left: build a set for `curr_target`; when the checks fail, pick a fresh target and try
again. -/
def singleRetry (all_addrs : List ℕ) :
    ℕ → EvSet ℕ → List ℕ → ℕ → σ → Except Fault (Option (EvSet ℕ) × List ℕ × σ)
  | 0, _, cands, _, st => pure (none, cands, st)
  | n_ret + 1, evset, cands, curr_target, st => do
    let out ← buildEvsetZhao (testEviction detailed) st curr_target
      { evset with size := 0, target_addr := curr_target } cands
    let (failed, st) := singleFailed detailed l2 out curr_target
    if failed then
      match pickL2Target detailed st out.cands curr_target all_addrs with
      | (none, st) => pure (none, out.cands, st)
      | (some (target, cands), st) => singleRetry all_addrs n_ret out.evset cands target st
    else pure (some out.evset, out.cands, st)

/-- `build_single_l2_evset(cands, target, set_idx, all_addrs, n_all_addrs)`
(`evset.c:1032`), on the shared pool `cands`: a `NULL` target is first picked from it. The
set has `cap_scaling · n_ways` slots, zeroed by `calloc`. It returns the set (`none` for
`NULL`) and the pool as the builder and the picks left it. -/
def buildSingleL2Evset (cand_scaling : ℕ) (l2_thresh : ℤ) (st : σ) (cands : List ℕ)
    (target : ℕ) (all_addrs : List ℕ) : Except Fault (Option (EvSet ℕ) × List ℕ × σ) :=
  let conf := initDefL2Conf cand_scaling l2_thresh
  let (picked, st) :=
    if target = 0 then pickL2Target detailed st cands 0 all_addrs else (some (target, cands), st)
  match picked with
  | none => pure (none, cands, st)
  | some (target, cands) =>
    let evset : EvSet ℕ := ⟨List.replicate (conf.cap_scaling * l2.n_ways) 0, 0,
      conf.cap_scaling * l2.n_ways, target, conf, l2⟩
    singleRetry detailed l2 all_addrs conf.n_retries evset cands target st

end Single

/-! ## The group of eviction sets -/

/-- `evset_shift(from, offset)` (`evset.c:636`): the same set with every line, and the
target, moved to offset `offset` of its page. -/
def evsetShift (ev : EvSet ℕ) (offset : ℕ) : EvSet ℕ :=
  { ev with
    target_addr := ev.target_addr / pageSize * pageSize + offset
    addrs := (ev.addrs.take ev.size).map (fun a => a / pageSize * pageSize + offset) ++
      List.replicate (ev.ev_cap - ev.size) 0 }

/-- `remove this from cands` (`evset.c:1314-1321`): the first occurrence of `addr` is
swapped with the last candidate and dropped. -/
def removeCand (cands : List ℕ) (addr : ℕ) : List ℕ :=
  match cands.findIdx? (fun c => c == addr) with
  | some c => (exch cands c (cands.length - 1)).take (cands.length - 1)
  | none => cands

/-- The number of L2 sets a page offset cannot tell apart, `1 << unknown_sib` in `u32`
(`unknown_sib` converted from `i32`). -/
def nUncertainSets (l2 : CacheInfo) : ℕ := 2 ^ (l2.unknown_sib % 2 ^ 32).toNat % 2 ^ 32

/-- `n_offsets = PAGE_SIZE / cl_size`, the line offsets of a page. -/
def nOffsets (l2 : CacheInfo) : ℕ := pageSize / l2.cl_size

/-- `uncertain_sets_to_build` (`evset.c:1163-1169`): `⌈num_sets / n_offsets⌉` in `u32`,
capped at the number of uncertain sets. -/
def uncertainSetsToBuild (l2 : CacheInfo) (num_sets : ℕ) : ℕ :=
  min ((num_sets + nOffsets l2 - 1) % 2 ^ 32 / nOffsets l2) (nUncertainSets l2)

/-- The complex `l2_evset_complex[0..n_offsets)` (`evset.c:1362-1374`): the built sets at
offset `0`, and their shifts by `n · cl_size` at offset `n`. -/
def l2Complex (l2 : CacheInfo) (evsets : List (Option (EvSet ℕ))) :
    List (List (Option (EvSet ℕ))) :=
  (List.range (nOffsets l2)).map fun n =>
    if n = 0 then evsets else evsets.map (Option.map (evsetShift · (n * l2.cl_size)))

section Build

variable (detailed : σ → ℕ → List ℕ → EvTestRes × σ) (l2 : CacheInfo) (cand_scaling : ℕ)
  (l2_thresh : ℤ)

/-- The variables of the loop over the uncertain sets: the pool, the last target, the lines
of the sets built so far (`all_addrs`, and `built_evset_addrs`, which holds the same lines),
the sets, and the state of the test. -/
structure L2Loop (σ : Type) where
  cands : List ℕ
  target : ℕ
  all_addrs : List ℕ
  evsets : List (Option (EvSet ℕ))
  st : σ

/-- The three verifications of a new set (`evset.c:1278-1288`); `true` when all fail. -/
def verifyRetry (ev : EvSet ℕ) : ℕ → σ → Bool × σ
  | 0, st => (true, st)
  | n + 1, st =>
    let (res, st') := verifyEvset detailed st ev ev.target_addr
    if res = .ok then (false, st') else verifyRetry ev n st'

/-- One iteration of the loop over the uncertain sets (`evset.c:1249-1345`): a new target
after the first set, the set itself, three verifications, and the lines of a kept set taken
out of the pool. -/
def l2SetStep (s : L2Loop σ) (i : ℕ) : Except Fault (L2Loop σ) := do
  let (picked, st) :=
    if i = 0 then (some (s.target, s.cands), s.st)
    else pickL2Target detailed s.st s.cands s.target s.all_addrs
  match picked with
  | none => pure { s with evsets := s.evsets ++ [none], st := st }
  | some (target, cands) =>
    let (ev?, cands, st) ←
      buildSingleL2Evset detailed l2 cand_scaling l2_thresh st cands target s.all_addrs
    match ev? with
    | none => pure ⟨cands, target, s.all_addrs, s.evsets ++ [none], st⟩
    | some ev =>
      let (failed, st) := verifyRetry detailed ev 3 st
      if failed then pure ⟨cands, target, s.all_addrs, s.evsets ++ [none], st⟩
      else pure ⟨ev.lines.foldl removeCand cands, target, s.all_addrs ++ ev.lines,
        s.evsets ++ [some ev], st⟩

/-- One whole attempt (`evset.c:1208-1345`) on a fresh pool: the initial target, then the
`u` sets. It returns `none` when no initial target exists (`return NULL`). -/
def l2Attempt (u : ℕ) (st : σ) (cands : List ℕ) :
    Except Fault (Option (List (Option (EvSet ℕ))) × σ) :=
  match pickL2Target detailed st cands 0 [] with
  | (none, st) => pure (none, st)
  | (some (target, cands), st) => do
    let s ← (List.range u).foldlM (l2SetStep detailed l2 cand_scaling l2_thresh)
      ⟨cands, target, [], [], st⟩
    pure (some s.evsets, s.st)

/-- The whole-procedure loop of `build_l2_evset` (`evset.c:1187-1421`), from attempt
`whole_ret`: a group that is complete and passes `validate_l2_evsets` is returned;
otherwise the procedure starts again, except that with `verbose > 1` the retry branch
returns `NULL` at once. -/
def l2Whole (verbose : ℤ) (pools : ℕ → Option (List ℕ)) (u max_whole_ret : ℕ) :
    ℕ → ℕ → σ → Except Fault (Option (List (List (Option (EvSet ℕ)))) × σ)
  | 0, _, _ => .error .outOfFuel
  | fuel + 1, whole_ret, st =>
    match pools whole_ret with
    | none => pure (none, st)
    | some cands => do
      let (res, st) ← l2Attempt detailed l2 cand_scaling l2_thresh u st cands
      match res with
      | none => pure (none, st)
      | some evsets =>
        -- `success_count == uncertain_sets_to_build && validate_l2_evsets(...)`
        let (group_valid, st) :=
          if evsets.countP Option.isSome = u then validateL2Evsets detailed st evsets
          else (false, st)
        if group_valid then pure (some (l2Complex l2 evsets), st)
        else if whole_ret + 1 ≤ max_whole_ret then
          if 1 < verbose then pure (none, st)
          else l2Whole verbose pools u max_whole_ret fuel (whole_ret + 1) st
        else pure (none, st)

/-- `build_l2_evset(num_sets)` (`evset.c:1151`), for the cache `l2_info`, the `-c` argument
`cand_scaling`, the threshold `l2_thresh`, the level `verbose` and the pools `pools`. The
whole procedure runs at most `max_whole_ret + 1` times. -/
def buildL2Evset (verbose : ℤ) (pools : ℕ → Option (List ℕ)) (st : σ) (num_sets : ℕ) :
    Except Fault (Option (List (List (Option (EvSet ℕ)))) × σ) :=
  let conf := initDefL2Conf cand_scaling l2_thresh
  l2Whole detailed l2 cand_scaling l2_thresh verbose pools (uncertainSetsToBuild l2 num_sets)
    conf.max_whole_ret (conf.max_whole_ret + 1) 0 st

end Build

/-- **The logging level decides the result.** A one-way cache with one uncertain set, lines
grouped by parity, and a first pool `[2, 3, 5]` in which no line shares the parity of the
target it picks: the first attempt fails. With `verbose = 2` the retry branch returns
`NULL`; with `verbose = 0` the second attempt, on the pool `[2, 4, 5]`, builds the set. -/
theorem buildL2Evset_verbose_diverges :
    buildL2Evset (idealDetailed (fun x y : ℕ => x % 2 = y % 2) 1) ⟨64, 6, 10, 1, 1, 0⟩ 0 0 2
        (fun k => if k = 0 then some [2, 3, 5] else some [2, 4, 5]) () 1 = .ok (none, ()) ∧
      ∃ complex, buildL2Evset (idealDetailed (fun x y : ℕ => x % 2 = y % 2) 1)
        ⟨64, 6, 10, 1, 1, 0⟩ 0 0 0 (fun k => if k = 0 then some [2, 3, 5] else some [2, 4, 5]) ()
        1 = .ok (some complex, ()) :=
  ⟨rfl, _, rfl⟩

end EvCache
