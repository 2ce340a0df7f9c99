import EvCache.Evset.L2

set_option autoImplicit false

/-!
# `build_evsets_at`: consecutive eviction sets from one pool

`build_evsets_at` of `src/evset.c` builds up to `build_limit` eviction sets from one
candidate pool. Each set is built by `final_l3_evset`, which runs `build_evset_zhao` on the
pool, tests the copied set and prunes the copy once more. The pool is then consumed by
moving its `addrs` pointer past `size` lines, and the next target is a line of the pool that
the lines of all sets built so far do not evict. At the end the pool pointer and count are
restored.

## Model

Addresses are natural numbers, `0` standing for `NULL`, as in `EvCache.Evset.L2`. The pool
(`EvCands`) is `EvCache.Pool`: the lines before the current pointer, the array from the
pointer on, and the live count. The test is `test_eviction` over the detailed test
`detailed`, which is also `conf->test` in every configuration the source builds. The clock
check of `final_l3_evset` is `timedOut`, a function of the state of the environment.
Allocations succeed. `conf->lower_ev`, which the source sets before each build, only changes
how a timing test runs, and every test is an argument here; it is not modelled. `ev_cap` is the
`u32` product of `n_ways` and `cap_scaling` (`EvCache.evCap`), wrapped at `2 ^ 32`; the other
counters are `u64` values.

## Main definitions

* `EvCache.finalL3Evset` — `final_l3_evset`.
* `EvCache.atLoop`, `EvCache.atStart` — the loop of `build_evsets_at` and the state it starts in.
* `EvCache.buildEvsetsAt` — `build_evsets_at`.

## Main results

* `EvCache.atLoop_spec` — the loop keeps `EvCache.AtInv` from every iteration on: the pool
  stays inside the array it was given (`EvCache.Pool.Inside`), entries are filled only below
  the iteration, and the accumulated lines fit `ev_cap` slots per set.
* `EvCache.buildEvsetsAt_restores_pool` — the call returns without a fault and gives the pool
  back permuted; at every iteration the pool is inside its array, with at most `build_limit`
  sets and `ev_cap · build_limit` lines.
* `EvCache.buildEvsetsAt_shares_line` — a run in which the first set holds the target of the
  second: the pool is consumed by the size after the second pruning, not by the lines
  kept.

## References

* `src/src/evset.c`, lines 1540-1582 (`final_l3_evset`) and 1990-2135 (`build_evsets_at`).
-/

namespace EvCache

open CArray

variable {σ : Type}

/-- The candidate pool `EvCands` as `build_evsets_at` moves through it: the lines before the
current `addrs` pointer (`cands_backup[0..addrs - cands_backup)`), the array from the
pointer on, and `count`. -/
structure Pool where
  consumed : List ℕ
  arr : List ℕ
  count : ℕ
  deriving DecidableEq, Repr

/-- The live candidates `addrs[0..count)`. -/
def Pool.live (p : Pool) : List ℕ := p.arr.take p.count

/-- The array with the live part replaced, as a builder that permutes `addrs[0..count)` in
place leaves it. -/
def Pool.setLive (p : Pool) (live : List ℕ) : Pool :=
  { p with arr := live ++ p.arr.drop p.count }

@[simp] lemma Pool.setLive_consumed (p : Pool) (live : List ℕ) :
    (p.setLive live).consumed = p.consumed := rfl

@[simp] lemma Pool.setLive_count (p : Pool) (live : List ℕ) : (p.setLive live).count = p.count :=
  rfl

section Model

variable (detailed : σ → ℕ → List ℕ → EvTestRes × σ) (timedOut : σ → Bool)

/-- The retry loop of `final_l3_evset` (`evset.c:1547-1579`), with `r` attempts left:
build a set for the current target; a build error tries again at once; a set that evicts
its target is pruned once more (the copy, not the pool) and kept; otherwise the last
candidate of the pool becomes the target, unless the pool is empty or time is up. It
returns `can_evict`, the set and the pool. -/
def finalL3Retry : ℕ → EvSet ℕ → Pool → σ → Except Fault (Bool × EvSet ℕ × Pool × σ)
  | 0, ev, pool, st => pure (false, ev, pool, st)
  | r + 1, ev, pool, st => do
    let out ← buildEvsetZhao (testEviction detailed) st ev.target_addr { ev with size := 0 }
      pool.live
    let pool := pool.setLive out.cands
    if out.has_err then finalL3Retry r out.evset pool out.st
    else
      let (res, st) := testEviction detailed out.st ev.target_addr out.evset.lines
      if res = .ok then do
        let (addrs, size, st) ← pruneEvcands (testEviction detailed) st ev.target_addr
          out.evset.addrs out.evset.size
        pure (true, { out.evset with addrs := addrs, size := size }, pool, st)
      else if pool.count = 0 then pure (false, out.evset, pool, st)
      else
        let target := pool.arr.getD (pool.count - 1) 0
        let ev : EvSet ℕ := { out.evset with target_addr := target }
        let pool : Pool := { pool with count := pool.count - 1 }
        if ev.build_conf.retry_timeout ≠ 0 ∧ timedOut st then pure (false, ev, pool, st)
        else finalL3Retry r ev pool st

/-- `final_l3_evset(l3ev)` (`evset.c:1540`), on the pool `pool` that `l3ev->cands` points
to: `true` for a build error. -/
def finalL3Evset (ev : EvSet ℕ) (pool : Pool) (st : σ) :
    Except Fault (Bool × EvSet ℕ × Pool × σ) := do
  let (can_evict, ev, pool, st) ← finalL3Retry detailed timedOut ev.build_conf.verify_retry ev
    pool st
  pure (!can_evict, ev, pool, st)

/-- The first lower-level set that evicts `target` (`evset.c:2037-2043`). -/
def findLowerEv (target : ℕ) : List (EvSet ℕ) → σ → Option (EvSet ℕ) × σ
  | [], st => (none, st)
  | lev :: rest, st =>
    let (res, st') := verifyEvset detailed st lev target
    if res = .ok then (some lev, st') else findLowerEv target rest st'

/-- The scan for the next target (`evset.c:2096-2105`), from index `j`: the first live
candidate that the lines `addrs` of the sets built so far do not evict. -/
def nextTargetScan (addrs : List ℕ) : List ℕ → ℕ → σ → Option (ℕ × ℕ) × σ
  | [], _, st => (none, st)
  | c :: rest, j, st =>
    let (res, st') := testEviction detailed st c addrs
    if res = .fail then (some (j, c), st') else nextTargetScan addrs rest (j + 1) st'

/-- The variables of the loop of `build_evsets_at`: the pool, the target, the lines of the
sets built so far (`NULL` before the first), and the result array. -/
structure AtState (σ : Type) where
  pool : Pool
  target : ℕ
  addrs : Option (List ℕ)
  evsets : List (Option (EvSet ℕ))
  st : σ

/-- The choice of the next target (`evset.c:2092-2116`); `none` when none is found. -/
def nextTarget (s : AtState σ) : Option (AtState σ) :=
  match s.addrs with
  | some addrs =>
    match nextTargetScan detailed addrs s.pool.live 0 s.st with
    | (some (j, c), st) =>
      let arr := exch s.pool.arr j (s.pool.count - 1)
      some { s with pool := { s.pool with arr := arr, count := s.pool.count - 1 }, target := c,
                    st := st }
    | (none, _) => none
  | none =>
    let count := s.pool.count - 1
    some { s with pool := { s.pool with count := count }, target := s.pool.arr.getD count 0 }

/-- `evset->ev_cap = l3_info.n_ways * conf->cap_scaling` (`evset.c:2060`): a product of two
`u32` values stored in the `u32` field `ev_cap`, so it wraps around at `2 ^ 32`. -/
def evCap (l3 : CacheInfo) (conf : EvBuildConf) : ℕ := l3.n_ways * conf.cap_scaling % 2 ^ 32

/-- The loop of `build_evsets_at` (`evset.c:2032-2117`), from iteration `i` with `fuel`
iterations left, for the configuration `conf`, the cache `cache` and the `L3` geometry
`l3_info` that sizes the sets. -/
def atLoop (l3 : CacheInfo) (conf : EvBuildConf) (cache : CacheInfo)
    (lower_evsets : List (EvSet ℕ)) (build_limit : ℕ) :
    ℕ → ℕ → AtState σ → Except Fault (AtState σ)
  -- the fuel is `build_limit - i`: it runs out only where the loop test fails
  | 0, _, s => pure s
  | fuel + 1, i, s =>
    if ¬ (i < build_limit ∧ 0 < s.pool.count) then pure s else do
      -- the tail of an iteration: stop at the last one, or pick the next target
      let tail (s : AtState σ) : Except Fault (AtState σ) :=
        if i = build_limit - 1 ∨ s.pool.count = 0 then pure s
        else match nextTarget detailed s with
          | none => pure s
          | some s => atLoop l3 conf cache lower_evsets build_limit fuel (i + 1) s
      -- with lower-level sets, a target none of them evicts is skipped (`goto l2_ev_fail`)
      let (has_lower, st) :=
        if lower_evsets = [] then (true, s.st)
        else
          let (lower_ev, st) := findLowerEv detailed s.target lower_evsets s.st
          (lower_ev.isSome, st)
      if ¬ has_lower then tail { s with st := st } else do
        let ev : EvSet ℕ := ⟨List.replicate (evCap l3 conf) 0, 0, evCap l3 conf, s.target, conf,
          cache⟩
        let (build_error, ev, pool, st) ← finalL3Evset detailed timedOut ev s.pool st
        if !build_error ∧ ev.size ≠ 0 then
          -- keep the set and move the pool pointer past `size` lines
          let pool : Pool := ⟨pool.consumed ++ pool.arr.take ev.size, pool.arr.drop ev.size,
            pool.count - ev.size⟩
          tail ⟨pool, s.target, some (s.addrs.getD [] ++ ev.lines), s.evsets.set i (some ev),
            st⟩
        else
          atLoop l3 conf cache lower_evsets build_limit fuel (i + 1) { s with pool, st }

/-- `n_possible` of `build_evsets_at` (`evset.c:1999-2003`): the sets the cache can hold, per
set of the filter's cache when there is one. -/
def nPossible (cache : CacheInfo) (filter_cache : Option CacheInfo) : ℕ :=
  match filter_cache with
  | some lower => cacheUncertainty cache / cacheUncertainty lower
  | none => cacheUncertainty cache

/-- `result_cap` of `build_evsets_at` (`evset.c:2004`). -/
def resultCap (max_evsets n_possible : ℕ) : ℕ := if 0 < max_evsets then max_evsets else n_possible

/-- The state the loop of `build_evsets_at` starts in (`evset.c:2024-2031`): the whole array as
the pool, its last line as the target and off the count, no lines yet, and a result array of
`result_cap` `NULL` entries. -/
def atStart (cands : List ℕ) (result_cap : ℕ) (st : σ) : AtState σ :=
  ⟨⟨[], cands, cands.length - 1⟩, cands.getD (cands.length - 1) 0, none,
    List.replicate result_cap none, st⟩

/-- `build_evsets_at(offset, conf, cache, _cands, ev_cnt, ..., lower_evsets, n_lower_evsets,
max_evsets)` (`evset.c:1990`), with the candidate pool `_cands` (`none` for `NULL`, when
`evcands_populate` gives `populated`) and `filter_cache`, the cache of `conf->filter_ev`.
It returns the array of sets (`none` for `NULL`), `*ev_cnt`, and the pool as restored at
the end. -/
def buildEvsetsAt (l3 : CacheInfo) (conf : EvBuildConf) (cache : CacheInfo)
    (filter_cache : Option CacheInfo) (cands : Option (List ℕ)) (populated : Option (List ℕ))
    (lower_evsets : List (EvSet ℕ)) (max_evsets : ℕ) (st : σ) :
    Except Fault (Option (List (Option (EvSet ℕ))) × ℕ × Option (List ℕ) × σ) := do
  let n_possible := nPossible cache filter_cache
  let result_cap := resultCap max_evsets n_possible
  let build_limit := min n_possible result_cap
  match (match cands with | some c => some c | none => populated) with
  | none => pure (none, result_cap, none, st)
  | some cands =>
    if cands.length = 0 then pure (none, result_cap, some cands, st) else do
      let s ← atLoop detailed timedOut l3 conf cache lower_evsets build_limit build_limit 0
        (atStart cands result_cap st)
      -- the pool pointer and count are restored
      pure (some s.evsets, result_cap, some (s.pool.consumed ++ s.pool.arr), s.st)

/-- `build_evsets_at` on a given pool. -/
lemma buildEvsetsAt_some (l3 : CacheInfo) (conf : EvBuildConf) (cache : CacheInfo)
    (filter_cache : Option CacheInfo) (cands : List ℕ) (populated : Option (List ℕ))
    (lower_evsets : List (EvSet ℕ)) (max_evsets : ℕ) (st : σ) :
    buildEvsetsAt detailed timedOut l3 conf cache filter_cache (some cands) populated lower_evsets
        max_evsets st =
      if cands.length = 0 then
        pure (none, resultCap max_evsets (nPossible cache filter_cache), some cands, st)
      else (do
        let s ← atLoop detailed timedOut l3 conf cache lower_evsets
          (min (nPossible cache filter_cache) (resultCap max_evsets (nPossible cache filter_cache)))
          (min (nPossible cache filter_cache) (resultCap max_evsets (nPossible cache filter_cache)))
          0 (atStart cands (resultCap max_evsets (nPossible cache filter_cache)) st)
        pure (some s.evsets, resultCap max_evsets (nPossible cache filter_cache),
          some (s.pool.consumed ++ s.pool.arr), s.st)) :=
  rfl

end Model

/-! ## The pool stays inside its array -/

/-- **The pool inside the array it was given.** The lines before the pointer and the array
from it are the input `cands₀` permuted, and the live window `[addrs, addrs + count)` ends
within the `count0` lines of `cands₀`. -/
structure Pool.Inside (cands₀ : List ℕ) (p : Pool) : Prop where
  perm : (p.consumed ++ p.arr).Perm cands₀
  window : p.consumed.length + p.count ≤ cands₀.length

namespace Pool.Inside

variable {cands₀ : List ℕ} {p : Pool}

lemma length_arr (h : p.Inside cands₀) : p.consumed.length + p.arr.length = cands₀.length := by
  simpa using h.perm.length_eq

lemma count_le (h : p.Inside cands₀) : p.count ≤ p.arr.length := by
  have := h.length_arr
  have := h.window
  omega

lemma length_live (h : p.Inside cands₀) : p.live.length = p.count := by
  simp [Pool.live, h.count_le]

lemma init (cands₀ : List ℕ) : (⟨[], cands₀, cands₀.length - 1⟩ : Pool).Inside cands₀ :=
  ⟨List.Perm.refl _, by simp⟩

/-- A builder that permutes the live window keeps the pool inside. -/
lemma setLive (h : p.Inside cands₀) {live : List ℕ} (hl : live.Perm p.live) :
    (p.setLive live).Inside cands₀ := by
  refine ⟨?_, h.window⟩
  have harr : (live ++ p.arr.drop p.count).Perm p.arr := by
    simpa [Pool.live, List.take_append_drop] using hl.append_right (p.arr.drop p.count)
  exact (harr.append_left p.consumed).trans h.perm

lemma pred (h : p.Inside cands₀) : ({ p with count := p.count - 1 } : Pool).Inside cands₀ :=
  ⟨h.perm, by have := h.window; dsimp only; omega⟩

/-- Moving the pointer past `k ≤ count` lines keeps the pool inside. -/
lemma consume (h : p.Inside cands₀) {k : ℕ} (hk : k ≤ p.count) :
    (⟨p.consumed ++ p.arr.take k, p.arr.drop k, p.count - k⟩ : Pool).Inside cands₀ := by
  refine ⟨by simpa [List.append_assoc] using h.perm, ?_⟩
  have := h.window
  have := h.count_le
  simp only [List.length_append, List.length_take]
  omega

/-- The swap of the next-target search, with the last live line, keeps the pool inside. -/
lemma exch_pred (h : p.Inside cands₀) (j : ℕ) :
    ({ p with arr := exch p.arr j (p.count - 1), count := p.count - 1 } : Pool).Inside cands₀ :=
  ⟨((exch_perm _ _ _).append_left p.consumed).trans h.perm, by have := h.window; dsimp only; omega⟩

end Pool.Inside

/-- **`build_evset_zhao` on the live window**, for every test: it returns, permutes the
window and keeps the `ev_cap` slots; it reports an error with the set unchanged, or returns
at most `ev_cap` lines and no more than there are candidates. -/
lemma buildEvsetZhao_total (test : σ → ℕ → List ℕ → EvRes × σ) (st : σ) (target : ℕ)
    (ev : EvSet ℕ) (cands : List ℕ) (hcap : ev.addrs.length = ev.ev_cap) :
    ∃ out, buildEvsetZhao test st target ev cands = .ok out ∧ out.cands.Perm cands ∧
      out.evset.ev_cap = ev.ev_cap ∧ out.evset.addrs.length = ev.ev_cap ∧
      ((out.has_err = true ∧ out.evset = ev) ∨
        (out.evset.size ≤ ev.ev_cap ∧ out.evset.size ≤ cands.length)) := by
  by_cases hn : 2 ≤ cands.length
  · obtain ⟨s, hrun, hdone⟩ := zhaoLoop_spec ev cands test target st hn
    have hlen : s.cands.length = cands.length := hdone.perm.length_eq
    have hcap' := hdone.evsz_le_cap
    have hle := hdone.evsz_le
    refine ⟨_, buildEvsetZhao_of_run hn hrun (by omega) (by omega), hdone.perm, rfl, ?_,
      .inr ⟨hcap', hdone.evsz_le⟩⟩
    simp only [List.length_append, List.length_take, List.length_drop]
    omega
  · exact ⟨⟨true, ev, cands, st⟩, by simp [buildEvsetZhao, show cands.length ≤ 1 by omega],
      List.Perm.refl _, rfl, hcap, .inl ⟨rfl, rfl⟩⟩

section Run

variable (detailed : σ → ℕ → List ℕ → EvTestRes × σ) (timedOut : σ → Bool) {cands₀ : List ℕ}

/-- **The retry loop of `final_l3_evset` keeps the pool inside**, for every test and clock:
it returns, and a set it reports as evicting has at most `ev_cap` lines, no more than the
live window it was built from.

**Proof sketch.** Induction on the attempts left. Each build permutes the window; a failed
attempt only shortens it by the new target; the second pruning keeps a prefix of the set. -/
lemma finalL3Retry_spec : ∀ (r : ℕ) (ev : EvSet ℕ) (pool : Pool) (st : σ),
    pool.Inside cands₀ → ev.addrs.length = ev.ev_cap →
    ∃ can_evict ev' pool' st', finalL3Retry detailed timedOut r ev pool st =
        .ok (can_evict, ev', pool', st') ∧ pool'.Inside cands₀ ∧
      (can_evict = true → ev'.size ≤ pool'.count ∧ ev'.size ≤ ev.ev_cap) := by
  intro r
  induction r with
  | zero =>
    intro ev pool st hp _
    exact ⟨false, ev, pool, st, rfl, hp, by simp⟩
  | succ r ih =>
    intro ev pool st hp hcap
    obtain ⟨out, hout, hperm, hcap', haddrs, hcases⟩ := buildEvsetZhao_total
      (testEviction detailed) st ev.target_addr { ev with size := 0 } pool.live hcap
    have hp₁ : (pool.setLive out.cands).Inside cands₀ := hp.setLive hperm
    have haddrs' : out.evset.addrs.length = out.evset.ev_cap := haddrs.trans hcap'.symm
    simp only [finalL3Retry, hout, ok_bind]
    by_cases herr : out.has_err = true
    · -- a build error: the next attempt at once, on the permuted window
      rw [if_pos herr]
      obtain ⟨c, e, p, s', heq, hin, hb⟩ := ih out.evset _ out.st hp₁ haddrs'
      exact ⟨c, e, p, s', heq, hin, fun hc => hcap' ▸ hb hc⟩
    rw [if_neg herr]
    obtain ⟨hsz, hsz'⟩ : out.evset.size ≤ ev.ev_cap ∧ out.evset.size ≤ pool.count := by
      rcases hcases with ⟨h, -⟩ | ⟨h₁, h₂⟩
      · exact absurd h herr
      · exact ⟨h₁, hp.length_live ▸ h₂⟩
    rcases htest : testEviction detailed out.st ev.target_addr out.evset.lines with ⟨res, st₁⟩
    dsimp only
    split_ifs with hres hcount htime
    · -- the set evicts its target: the copy is pruned once more
      obtain ⟨addrs, k, st₂, hprune, hk, hpo⟩ := pruneEvcands_spec (testEviction detailed)
        ev.target_addr st₁ out.evset.addrs
        (show out.evset.size ≤ out.evset.addrs.length by rw [haddrs', hcap']; omega)
      rw [hprune, ok_bind]
      exact ⟨true, _, _, _, rfl, hp₁, fun _ => ⟨by simp; omega, by dsimp only; omega⟩⟩
    · exact ⟨false, _, _, _, rfl, hp₁, by simp⟩
    · exact ⟨false, _, _, _, rfl, hp₁.pred, by simp⟩
    · -- the last live line becomes the target of the next attempt
      obtain ⟨c, e, p, s', heq, hin, hb⟩ := ih ⟨out.evset.addrs, out.evset.size, out.evset.ev_cap,
        (pool.setLive out.cands).arr.getD ((pool.setLive out.cands).count - 1) 0,
        out.evset.build_conf, out.evset.target_cache⟩ _ st₁ hp₁.pred haddrs'
      exact ⟨c, e, p, s', heq, hin, fun hc => hcap' ▸ hb hc⟩

lemma finalL3Evset_spec (ev : EvSet ℕ) (pool : Pool) (st : σ) (hp : pool.Inside cands₀)
    (hcap : ev.addrs.length = ev.ev_cap) :
    ∃ build_error ev' pool' st', finalL3Evset detailed timedOut ev pool st =
        .ok (build_error, ev', pool', st') ∧ pool'.Inside cands₀ ∧
      (build_error = false → ev'.size ≤ pool'.count ∧ ev'.size ≤ ev.ev_cap) := by
  obtain ⟨c, e, p, s', heq, hin, hb⟩ :=
    finalL3Retry_spec detailed timedOut ev.build_conf.verify_retry ev pool st hp hcap
  refine ⟨!c, e, p, s', by simp [finalL3Evset, heq], hin, fun h => hb (by simpa using h)⟩

/-- The choice of the next target moves only the pool, and keeps it inside. -/
lemma nextTarget_spec {s s' : AtState σ} (h : nextTarget detailed s = some s')
    (hp : s.pool.Inside cands₀) :
    s'.pool.Inside cands₀ ∧ s'.addrs = s.addrs ∧ s'.evsets = s.evsets := by
  unfold nextTarget at h
  split at h
  · split at h
    · cases h
      exact ⟨hp.exch_pred _, rfl, rfl⟩
    · cases h
  · cases h
    exact ⟨hp.pred, rfl, rfl⟩

/-- **The invariant of the loop of `build_evsets_at`** at iteration `i`, for sets of `cap`
slots and a result array of `result_cap` entries: the pool is inside its array, no entry
from `i` on is filled and at most `i` are, and the lines of the sets built so far fill at
most `cap` slots per set. -/
structure AtInv (cands₀ : List ℕ) (cap result_cap i : ℕ) (s : AtState σ) : Prop where
  pool : s.pool.Inside cands₀
  length : s.evsets.length = result_cap
  unset : ∀ j, i ≤ j → s.evsets.getD j none = none
  filled : s.evsets.countP (·.isSome) ≤ i
  addrs : (s.addrs.getD []).length ≤ cap * s.evsets.countP (·.isSome)

namespace AtInv

variable {cap result_cap i : ℕ} {s : AtState σ}

lemma mono (h : AtInv cands₀ cap result_cap i s) {j : ℕ} (hij : i ≤ j) :
    AtInv cands₀ cap result_cap j s :=
  ⟨h.pool, h.length, fun k hk => h.unset k (le_trans hij hk), le_trans h.filled hij, h.addrs⟩

/-- A step that leaves the lines and the result array keeps the invariant if it keeps the
pool inside. -/
lemma of_eq (h : AtInv cands₀ cap result_cap i s) {s' : AtState σ} (hp : s'.pool.Inside cands₀)
    (ha : s'.addrs = s.addrs) (he : s'.evsets = s.evsets) : AtInv cands₀ cap result_cap i s' := by
  obtain ⟨-, hl, hu, hf, had⟩ := h
  rw [← ha, ← he] at *
  exact ⟨hp, hl, hu, hf, had⟩

lemma setPool (h : AtInv cands₀ cap result_cap i s) {p : Pool} (hp : p.Inside cands₀) (st : σ) :
    AtInv cands₀ cap result_cap i { s with pool := p, st := st } :=
  h.of_eq hp rfl rfl

/-- A set kept at iteration `i` fills entry `i` and appends its lines. -/
lemma keep (h : AtInv cands₀ cap result_cap i s) (hi : i < result_cap) {p : Pool}
    (hp : p.Inside cands₀) (ev : EvSet ℕ) (hev : ev.lines.length ≤ cap) (target : ℕ) (st : σ) :
    AtInv cands₀ cap result_cap (i + 1)
      ⟨p, target, some (s.addrs.getD [] ++ ev.lines), s.evsets.set i (some ev), st⟩ := by
  have hlt : i < s.evsets.length := h.length ▸ hi
  have hnone : s.evsets[i] = none := by
    have := h.unset i le_rfl
    rwa [List.getD_eq_getElem _ _ hlt] at this
  have hcount : (s.evsets.set i (some ev)).countP (·.isSome) =
      s.evsets.countP (·.isSome) + 1 := by
    rw [List.countP_set hlt, hnone]
    simp
  refine ⟨hp, by rw [List.length_set, h.length], fun j hj => ?_, ?_, ?_⟩
  · rw [List.getD_eq_getElem?_getD, List.getElem?_set_ne (by omega),
      ← List.getD_eq_getElem?_getD]
    exact h.unset j (by omega)
  · have := h.filled
    rw [hcount]
    omega
  · have := h.addrs
    rw [hcount, Option.getD_some, List.length_append, Nat.mul_succ]
    omega

end AtInv

lemma atLoop_spec (l3 : CacheInfo) (conf : EvBuildConf) (cache : CacheInfo)
    (lower_evsets : List (EvSet ℕ)) {build_limit result_cap : ℕ}
    (hbl : build_limit ≤ result_cap) :
    ∀ (fuel i : ℕ) (s : AtState σ), i ≤ build_limit →
      AtInv cands₀ (evCap l3 conf) result_cap i s →
      ∃ s', atLoop detailed timedOut l3 conf cache lower_evsets build_limit fuel i s = .ok s' ∧
        AtInv cands₀ (evCap l3 conf) result_cap build_limit s' := by
  intro fuel
  induction fuel with
  | zero =>
    intro i s hi hs
    exact ⟨s, rfl, hs.mono hi⟩
  | succ fuel ih =>
    intro i s hi hs
    unfold atLoop
    by_cases hguard : i < build_limit ∧ 0 < s.pool.count
    swap
    · rw [if_pos hguard]
      exact ⟨s, rfl, hs.mono hi⟩
    rw [if_neg (not_not_intro hguard)]
    extract_lets tail ev₀
    split
    next _ has_lower st₁ _ =>
    -- the tail of an iteration, from a state with the invariant at `i + 1`
    have htail : ∀ s₁ : AtState σ,
        AtInv cands₀ (evCap l3 conf) result_cap (i + 1) s₁ →
        ∃ s', tail s₁ = .ok s' ∧
          AtInv cands₀ (evCap l3 conf) result_cap build_limit s' := by
      intro s₁ h₁
      simp only [tail]
      split_ifs with hstop
      · exact ⟨s₁, rfl, h₁.mono (by omega)⟩
      · split
        · exact ⟨s₁, rfl, h₁.mono (by omega)⟩
        · rename_i s₂ hnext
          obtain ⟨hp, ha, he⟩ := nextTarget_spec detailed hnext h₁.pool
          exact ih (i + 1) s₂ (by omega) (h₁.of_eq hp ha he)
    by_cases hlow : has_lower = true
    swap
    · -- no lower-level set evicts the target: it is skipped
      rw [if_pos hlow]
      exact htail _ ((hs.setPool hs.pool st₁).mono (Nat.le_succ i))
    rw [if_neg (not_not_intro hlow)]
    obtain ⟨build_error, ev, pool, st', hfin, hp, hb⟩ :=
      finalL3Evset_spec detailed timedOut ev₀ s.pool st₁ hs.pool (by simp [ev₀])
    rw [hfin, ok_bind]
    dsimp only
    split_ifs with hkeep
    · -- the set is kept: the pointer moves past its `size ≤ count` lines
      obtain ⟨hsize, hcap⟩ := hb (by simpa using hkeep.1)
      have hlines : ev.lines.length ≤ evCap l3 conf := by
        have hcap' : ev.size ≤ evCap l3 conf := hcap
        simp only [EvSet.lines, List.length_take]
        omega
      exact htail _ (hs.keep (by omega) (hp.consume hsize) ev hlines s.target st')
    · -- no set: the next iteration on the pool the build left
      exact ih (i + 1) _ (by omega) ((hs.setPool hp st').mono (Nat.le_succ i))

/-- The loop of `build_evsets_at` starts in its invariant: the pool is the whole array with the
target taken off its end, and no entry of the result is filled. -/
lemma atInv_start (cap result_cap : ℕ) (cands : List ℕ) (st : σ) :
    AtInv cands cap result_cap 0 (atStart cands result_cap st) :=
  ⟨Pool.Inside.init cands, List.length_replicate, fun j _ => by
      rw [atStart, List.getD_eq_getElem?_getD, List.getElem?_replicate]
      split <;> rfl,
    by simp [atStart], by simp [atStart]⟩

/-- **`build_evsets_at` leaves the pool as it found it, up to a permutation**, for every
test, clock, configuration, caches, lower-level sets and `max_evsets`. The call returns
without a fault and gives back the array `addrs0[0..count0)` permuted. When the pool is not
empty, the array of sets is the one the loop leaves, and the loop keeps its invariant at every
iteration: the loop's fuel counts its iterations, and stopped after any number `k` of them it
has not faulted, its live window lies inside the array it was given (`EvCache.Pool.Inside`), at
most `build_limit` entries of the result are filled, and the lines accumulated for the
next-target search fill at most `ev_cap · build_limit` slots, `ev_cap` the `u32` value
`evset.c:2060` computes.

**Proof sketch.** `atLoop_spec` from the initial state (`atInv_start`), once for every `k`. -/
theorem buildEvsetsAt_restores_pool (l3 : CacheInfo) (conf : EvBuildConf) (cache : CacheInfo)
    (filter_cache : Option CacheInfo) (cands : List ℕ) (populated : Option (List ℕ))
    (lower_evsets : List (EvSet ℕ)) (max_evsets : ℕ) (st : σ) :
    let result_cap := resultCap max_evsets (nPossible cache filter_cache)
    let build_limit := min (nPossible cache filter_cache) result_cap
    ∃ evsets pool st', buildEvsetsAt detailed timedOut l3 conf cache filter_cache (some cands)
        populated lower_evsets max_evsets st = .ok (evsets, result_cap, some pool, st') ∧
      pool.Perm cands ∧
      (cands = [] ∨
        (∃ s, atLoop detailed timedOut l3 conf cache lower_evsets build_limit build_limit 0
            (atStart cands result_cap st) = .ok s ∧
          evsets = some s.evsets ∧ pool = s.pool.consumed ++ s.pool.arr) ∧
        ∀ k, ∃ s, atLoop detailed timedOut l3 conf cache lower_evsets build_limit k 0
            (atStart cands result_cap st) = .ok s ∧
          s.pool.Inside cands ∧ s.evsets.countP (·.isSome) ≤ build_limit ∧
          (s.addrs.getD []).length ≤ evCap l3 conf * build_limit) := by
  intro result_cap build_limit
  by_cases hc : cands.length = 0
  · exact ⟨none, cands, st, by rw [buildEvsetsAt_some, if_pos hc]; rfl, List.Perm.refl _,
      .inl (List.length_eq_zero_iff.mp hc)⟩
  -- the loop cut after `k` iterations, for every `k`
  have hrun : ∀ k, ∃ s, atLoop detailed timedOut l3 conf cache lower_evsets build_limit k 0
      (atStart cands result_cap st) = .ok s ∧ AtInv cands (evCap l3 conf) result_cap build_limit s :=
    fun k => atLoop_spec detailed timedOut l3 conf cache lower_evsets (min_le_right _ _) k 0 _
      (Nat.zero_le _) (atInv_start _ _ cands st)
  obtain ⟨s, hs, hinv⟩ := hrun build_limit
  refine ⟨some s.evsets, s.pool.consumed ++ s.pool.arr, s.st,
    by rw [buildEvsetsAt_some, if_neg hc, hs, ok_bind]; rfl, hinv.pool.perm,
    .inr ⟨⟨s, hs, rfl, rfl⟩, fun k => ?_⟩⟩
  obtain ⟨s', hs', hinv'⟩ := hrun k
  refine ⟨s', hs', hinv'.pool, hinv'.filled, ?_⟩
  calc (s'.addrs.getD []).length ≤ evCap l3 conf * s'.evsets.countP (·.isSome) := hinv'.addrs
    _ ≤ evCap l3 conf * build_limit := Nat.mul_le_mul_left _ hinv'.filled

/-- `build_evsets_at` on a given pool returns, with an array of `result_cap` entries. -/
lemma buildEvsetsAt_some_ok (l3 : CacheInfo) (conf : EvBuildConf) (cache : CacheInfo)
    (filter_cache : Option CacheInfo) (cands : List ℕ) (populated : Option (List ℕ))
    (lower_evsets : List (EvSet ℕ)) (max_evsets : ℕ) (st : σ) :
    ∃ evsets pool st', buildEvsetsAt detailed timedOut l3 conf cache filter_cache (some cands)
        populated lower_evsets max_evsets st =
        .ok (evsets, resultCap max_evsets (nPossible cache filter_cache), pool, st') ∧
      ∀ arr, evsets = some arr → arr.length = resultCap max_evsets (nPossible cache filter_cache) := by
  rw [buildEvsetsAt_some]
  by_cases hc : cands.length = 0
  · rw [if_pos hc]
    exact ⟨none, some cands, st, rfl, fun _ h => by cases h⟩
  rw [if_neg hc]
  obtain ⟨s, hrun, hinv⟩ := atLoop_spec detailed timedOut l3 conf cache lower_evsets
    (min_le_right _ _) _ 0 _ (Nat.zero_le _) (atInv_start _ _ cands st)
  rw [hrun, ok_bind]
  exact ⟨some s.evsets, _, s.st, rfl, fun arr harr => Option.some.inj harr ▸ hinv.length⟩

/-- **`build_evsets_at` returns an array of `*ev_cnt` entries**, for every pool, test, clock,
configuration, caches, lower-level sets and `max_evsets`: it never faults, it writes
`result_cap` to `*ev_cnt`, and the array it returns, when it returns one, has that many
entries. A `NULL` pool is populated first, so the same holds of it. -/
lemma buildEvsetsAt_ok (l3 : CacheInfo) (conf : EvBuildConf) (cache : CacheInfo)
    (filter_cache : Option CacheInfo) (cands populated : Option (List ℕ))
    (lower_evsets : List (EvSet ℕ)) (max_evsets : ℕ) (st : σ) :
    ∃ evsets pool st', buildEvsetsAt detailed timedOut l3 conf cache filter_cache cands
        populated lower_evsets max_evsets st =
        .ok (evsets, resultCap max_evsets (nPossible cache filter_cache), pool, st') ∧
      ∀ arr, evsets = some arr → arr.length = resultCap max_evsets (nPossible cache filter_cache) := by
  cases cands with
  | some cands =>
    exact buildEvsetsAt_some_ok detailed timedOut l3 conf cache filter_cache cands populated
      lower_evsets max_evsets st
  | none =>
    cases populated with
    | none =>
      exact ⟨none, none, st, by cases filter_cache <;> rfl, fun _ h => by cases h⟩
    | some cands =>
      have h : buildEvsetsAt detailed timedOut l3 conf cache filter_cache none (some cands)
          lower_evsets max_evsets st = buildEvsetsAt detailed timedOut l3 conf cache filter_cache
            (some cands) none lower_evsets max_evsets st := rfl
      rw [h]
      exact buildEvsetsAt_some_ok detailed timedOut l3 conf cache filter_cache cands none
        lower_evsets max_evsets st

end Run

/-- **The pool is consumed by the size, not by the lines kept.** With the default `L3`
configuration, a two-way cache of two colours, the parity oracle and the seven odd lines
`1, ..., 13`, two noisy answers in the second pruning of `final_l3_evset` (the tenth and
eleventh tests) drop the line `3` of the set `[3, 11]` that `build_evset_zhao` left at the
front of the pool and keep `11`. The pool pointer then moves past one line, `3`, so `11`
stays in the pool and becomes the target of the second set: the first set holds the target
of the second. -/
theorem buildEvsetsAt_shares_line :
    ∃ e₀ e₁ rest, buildEvsetsAt
      (fun (k t : ℕ) (S : List ℕ) => (if k = 9 then .evNeg else if k = 10 then .evPos
        else (idealDetailed (fun x y : ℕ => x % 2 = y % 2) 2 () t S).1, k + 1))
      (fun _ => false) ⟨64, 6, 7, 2, 1, 0⟩ (initDefL3Conf 0 0 0) ⟨64, 6, 7, 2, 1, 0⟩ none
      (some [1, 3, 5, 7, 9, 11, 13]) none [] 2 0 = .ok (some [some e₀, some e₁], rest) ∧
      e₀.lines = [11] ∧ e₁.target_addr = 11 :=
  ⟨_, _, _, rfl, rfl, rfl⟩

end EvCache
