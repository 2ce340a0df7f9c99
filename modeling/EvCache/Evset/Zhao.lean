import EvCache.Evset.Prune

set_option autoImplicit false

/-!
# `build_evset_zhao`: the binary-search eviction-set builder

The builder of `src/evset.c`, the binary search of *Last Level Cache Side Channel Attacks are
Feasible in the Modern Public Cloud*, which `evset.c:843-845` cites. It grows an eviction set
`cands[0..evsz)` at the front of the candidate array. Each iteration searches the window `cands[offset..cnt)` for
the shortest prefix that still evicts the target, with `lower` below and `upper` above the
answer; the last line of that prefix is congruent to the target and is swapped to
`cands[evsz]`. A failed search counts as a backtrack and pulls fresh candidates from the
tail of the array behind `upper`. Once the set reaches `n_ways + extra_cong` lines and
evicts the target, it is pruned with `prune_evcands`.

The model follows the source line by line, one definition per phase of an iteration:

* `EvCache.zhaoOffset`, `EvCache.zhaoFirstCnt` — the window offset (`slack`) and the first,
  skewed probe (`evset.c:885-899`);
* `EvCache.zhaoSearch` — the halving loop (`evset.c:905-918`);
* `EvCache.zhaoAdd` — backtrack, or add the found line (`evset.c:920-932`);
* `EvCache.zhaoPrune` — the test of the full set and the pruning (`evset.c:934-940`);
* `EvCache.zhaoMigrate` — the migration of tail candidates (`evset.c:942-952`);
* `EvCache.zhaoClamp` — `upper` kept above `lower` (`evset.c:954-961`).

Each array access is checked (`EvCache.CArray`), and each loop gets a fuel bound, so a
result `.ok` certifies that the run stayed inside the candidate array and terminated.

## Main definitions

* `EvCache.ZhaoState` — the loop variables of `build_evset_zhao`.
* `EvCache.zhaoBody` — one iteration of its loop.
* `EvCache.buildEvsetZhao` — `build_evset_zhao`.

## Implementation notes

`exp_evsz` is a `u32`, and `EvCache.expEvsz` wraps the sum `n_ways + extra_cong` as it does.
The `u32` locals `offset` and `rem` are differences below `ev_cap` and `n_ways`, which are
`u32` fields in the source, and are taken without a wrap.

`1 << unknown_sib` is an `int` shift in the source, which overflows for `unknown_sib ≥ 30`
and is undefined for negative values; `EvCache.zhaoStep` takes the mathematical value.
Every result about the builder holds for every value of the step, so none depends on this.

## References

* `src/src/evset.c`, lines 847-961 (`build_evset_zhao`) and 613-634 (`prune_evcands`).
-/

namespace EvCache

open CArray FuelLoop

variable {σ α : Type}

/-- The loop variables of `build_evset_zhao`: the candidate array, the set size `evsz`, the
search bounds, the backtrack and iteration counters, the reset flag, the migration index,
and the state of the test. -/
structure ZhaoState (σ α : Type) where
  cands : List α
  evsz : ℕ
  lower : ℤ
  upper : ℤ
  n_bctr : ℤ
  iters : ℤ
  is_reset : Bool
  migrated : ℕ
  st : σ

/-- What `build_evset_zhao` leaves behind: its error flag, the eviction set (with `size` and
the copied `addrs`), the candidate array, and the state of the test. -/
structure ZhaoOut (σ α : Type) where
  has_err : Bool
  evset : EvSet α
  cands : List α
  st : σ

/-! ## The constants of a run -/

/-- `num_carried_cong = n_ways - slack`, a `u64` difference that wraps around when
`slack > n_ways`. -/
def numCarriedCong (ev : EvSet α) : ℕ :=
  if ev.build_conf.slack ≤ ev.target_cache.n_ways then
    ev.target_cache.n_ways - ev.build_conf.slack
  else 2 ^ 64 - (ev.build_conf.slack - ev.target_cache.n_ways)

/-- `u32 exp_evsz = n_ways + extra_cong`, the size at which the set is tested and pruned. The
sum is stored in a `u32`, so it wraps around once it reaches `2 ^ 32`. -/
def expEvsz (ev : EvSet α) : ℕ := (ev.target_cache.n_ways + ev.build_conf.extra_cong) % 2 ^ 32

/-- Without extra congruent lines the set is tested at `n_ways` lines or fewer. -/
lemma expEvsz_le_of_extra_zero {ev : EvSet α} (h : ev.build_conf.extra_cong = 0) :
    expEvsz ev ≤ ev.target_cache.n_ways := by
  rw [expEvsz, h, Nat.add_zero]
  exact Nat.mod_le _ _

/-- `step = 3 * (1 << unknown_sib) / 2`, the number of tail candidates one migration moves. -/
def zhaoStep (ev : EvSet α) : ℕ := 3 * 2 ^ ev.target_cache.unknown_sib.toNat / 2

/-! ## The phases of an iteration -/

/-- The window offset (`evset.c:886-889`): with `slack`, the search window starts behind the
first `evsz - num_carried_cong` lines of the set. -/
def zhaoOffset (ev : EvSet α) (evsz : ℕ) : ℕ :=
  if ev.build_conf.slack ≠ 0 ∧ numCarriedCong ev < evsz then evsz - numCarriedCong ev else 0

/-- The first probe (`evset.c:891-899`): once the set has lines and was not reset, skewed
towards `upper` by the number `rem` of lines still missing; otherwise the midpoint. -/
def zhaoFirstCnt (n_ways : ℕ) (s : ZhaoState σ α) : ℤ :=
  if 0 < s.evsz ∧ s.is_reset = false ∧ s.evsz < n_ways then
    let rem : ℤ := (n_ways : ℤ) - s.evsz
    let cnt := (s.upper * rem + s.lower).tdiv (rem + 1)
    if cnt = s.upper then cnt - 1 else cnt
  else (s.upper + s.lower).tdiv 2

/-- The variables of the halving loop. -/
structure BsState (σ : Type) where
  lower : ℤ
  upper : ℤ
  cnt : ℤ
  has_pos : Bool
  st : σ

/-- One probe of the halving loop (`evset.c:908-917`): test `cands[offset..cnt)`; a pass
moves `upper` down to `cnt`, a failure moves `lower` up to it. -/
def bsBody (test : σ → α → List α → EvRes × σ) (target : α) (cands : List α) (offset : ℕ)
    (b : BsState σ) : Except Fault (Next (BsState σ)) := do
  let S ← slice cands offset b.cnt
  let (res, st) := test b.st target S
  if res = .ok then
    pure (.cont ⟨b.lower, b.cnt, (b.cnt + b.lower).tdiv 2, true, st⟩)
  else
    pure (.cont ⟨b.cnt, b.upper, (b.upper + b.cnt).tdiv 2, b.has_pos, st⟩)

/-- The guard of the halving loop: `upper - lower > 1`. -/
def bsGuard (b : BsState σ) : Bool := decide (1 < b.upper - b.lower)

/-- The halving loop (`evset.c:905-918`), from `lower`, `upper` and the first probe. -/
def zhaoSearch (test : σ → α → List α → EvRes × σ) (target : α) (cands : List α)
    (offset : ℕ) (lower upper cnt : ℤ) (st : σ) : Except Fault (BsState σ) :=
  run bsGuard (bsBody test target cands offset) .outOfFuel ((upper - lower).toNat + 1)
    ⟨lower, upper, cnt, false, st⟩

/-- After the search (`evset.c:920-932`): when no probe passed and the whole window fails,
a backtrack and a reset; otherwise the line at `upper - 1` is swapped into `cands[evsz]`.
The `&&` of the source tests the window only when no probe passed. -/
def zhaoAdd (test : σ → α → List α → EvRes × σ) (target : α) (offset : ℕ) (b : BsState σ)
    (s : ZhaoState σ α) : Except Fault (ZhaoState σ α) := do
  let (backtrack, st) ← if b.has_pos then pure (false, b.st) else do
      let S ← slice s.cands offset b.upper
      let (res, st) := test b.st target S
      pure (decide (res = .fail), st)
  if backtrack then
    pure { s with lower := b.lower, upper := b.upper, n_bctr := s.n_bctr + 1, is_reset := true,
                  st := st }
  else do
    let cands ← swap s.cands s.evsz (b.upper - 1)
    pure { s with cands := cands, evsz := s.evsz + 1, lower := b.lower, upper := b.upper,
                  is_reset := false, st := st }

/-- The test of the whole set (`evset.c:934-940`): a set of `exp_evsz` lines that evicts the
target is pruned; the loop ends if it keeps `exp_evsz` lines, and counts a backtrack if not. -/
def zhaoPrune (test : σ → α → List α → EvRes × σ) (target : α) (exp_evsz : ℕ)
    (s : ZhaoState σ α) : Except Fault (Next (ZhaoState σ α)) := do
  if s.evsz < exp_evsz then pure (.cont s) else do
    let S ← slice s.cands 0 s.evsz
    let (res, st) := test s.st target S
    if res = .ok then do
      let (cands, evsz, st) ← pruneEvcands test st target s.cands s.evsz
      if exp_evsz ≤ evsz then pure (.brk { s with cands := cands, evsz := evsz, st := st })
      else pure (.cont { s with cands := cands, evsz := evsz, n_bctr := s.n_bctr + 1, st := st })
    else pure (.cont { s with st := st })

/-- The variables of the migration loop. -/
structure MigState (α : Type) where
  cands : List α
  upper : ℤ
  migrated : ℕ
  i : ℕ

/-- One move of the migration loop (`evset.c:948-950`): swap `cands[upper]` with
`cands[migrated]`. -/
def migBody (m : MigState α) : Except Fault (Next (MigState α)) := do
  let cands ← swap m.cands m.upper m.migrated
  pure (.cont ⟨cands, m.upper + 1, m.migrated - 1, m.i + 1⟩)

/-- The guard of the migration loop: `i < step && upper < migrated`. -/
def migGuard (step : ℕ) (m : MigState α) : Bool := decide (m.i < step ∧ m.upper < m.migrated)

/-- `lower = evsz` and the migration of tail candidates (`evset.c:942-952`): after a reset,
or when the set carries more than `num_carried_cong` lines, up to `step` candidates from the
tail are swapped in behind `upper`. -/
def zhaoMigrate (ev : EvSet α) (n_cands : ℕ) (s : ZhaoState σ α) :
    Except Fault (ZhaoState σ α) := do
  let s := { s with lower := (s.evsz : ℤ) }
  if s.is_reset ∨ (ev.build_conf.slack ≠ 0 ∧ numCarriedCong ev < s.evsz) then do
    let migrated := if (s.migrated : ℤ) ≤ s.upper then n_cands - 1 else s.migrated
    let m ← run (migGuard (zhaoStep ev)) migBody .outOfFuel (n_cands + 1)
      ⟨s.cands, s.upper, migrated, 0⟩
    pure { s with cands := m.cands, upper := m.upper, migrated := m.migrated }
  else pure s

/-- `upper` kept above `lower` (`evset.c:954-961`), and `iters++`; the loop ends with an error
message when that puts `upper` past the array. -/
def zhaoClamp (n_cands : ℕ) (s : ZhaoState σ α) : Next (ZhaoState σ α) :=
  if s.upper ≤ s.lower then
    if (n_cands : ℤ) < s.lower + 1 then .brk { s with upper := s.lower + 1 }
    else .cont { s with upper := s.lower + 1, iters := s.iters + 1 }
  else .cont { s with iters := s.iters + 1 }

/-! ## The builder -/

/-- One iteration of the loop of `build_evset_zhao` (`evset.c:884-961`). -/
def zhaoBody (test : σ → α → List α → EvRes × σ) (target : α) (ev : EvSet α) (n_cands : ℕ)
    (s : ZhaoState σ α) : Except Fault (Next (ZhaoState σ α)) := do
  let offset := zhaoOffset ev s.evsz
  let b ← zhaoSearch test target s.cands offset s.lower s.upper
    (zhaoFirstCnt ev.target_cache.n_ways s) s.st
  let s ← zhaoAdd test target offset b s
  match ← zhaoPrune test target (expEvsz ev) s with
  | .brk s => pure (.brk s)
  | .cont s => do
    let s ← zhaoMigrate ev n_cands s
    pure (zhaoClamp n_cands s)

/-- The guard of the loop: `evsz < ev_cap && n_bctr < max_bctr`. -/
def zhaoGuard (ev : EvSet α) (s : ZhaoState σ α) : Bool :=
  decide (s.evsz < ev.ev_cap ∧ s.n_bctr < ev.build_conf.max_backtrack)

/-- The fuel of the loop: every iteration adds a line or counts a backtrack. -/
def zhaoFuel (ev : EvSet α) : ℕ := (ev.build_conf.max_backtrack + 1) * (ev.ev_cap + 1)

/-- `build_evset_zhao(target, evset)` (`evset.c:847`), on the candidate array
`evset->cands->addrs[0..count)`. It returns `true` (an error) only for fewer than two
candidates; otherwise it sets `evset->size` and copies `cands[0..size)` into
`evset->addrs`. -/
def buildEvsetZhao (test : σ → α → List α → EvRes × σ) (st : σ) (target : α) (ev : EvSet α)
    (cands : List α) : Except Fault (ZhaoOut σ α) := do
  if cands.length ≤ 1 then pure ⟨true, ev, cands, st⟩ else do
    let s ← run (zhaoGuard ev) (zhaoBody test target ev cands.length) .outOfFuel (zhaoFuel ev)
      ⟨cands, 0, 0, cands.length, 0, 0, false, cands.length - 1, st⟩
    let addrs ← copy ev.addrs s.cands s.evsz
    pure ⟨false, { ev with size := s.evsz, addrs := addrs }, s.cands, s.st⟩

end EvCache
