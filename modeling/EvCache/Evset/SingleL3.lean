import EvCache.Evset.BuildAt
import EvCache.Evset.Complex

set_option autoImplicit false

/-!
# `build_single_l3_evset`: one eviction set of the last-level cache

`build_single_l3_evset` of `src/evset.c` is the single-set path of `vevict` and of the
`vset` monitors. It builds one L2 eviction set on candidates of its own, filters the lines
of a fresh buffer by that set, takes the last filtered line as the target and the others as
the pool, checks that the pool evicts the target, builds the set with `final_l3_evset` and
verifies it against the target.

## Model

`build_single_l2_evset(NULL, NULL, 0, NULL, 0)` populates candidates of its own, with the
L2 configuration, whose `filter_ev` is `NULL`: the model makes that call of
`evcands_populate` and passes its lines to `EvCache.buildSingleL2Evset`. The buffers the two
calls of `evcands_new` map are arguments, as are the L2 test, the L3 test, the trials of the
filter and the clock of `final_l3_evset`, all over one state of the hardware. Allocations
succeed. The helper thread the L3 test runs on, the pinning through `vtop`, the copy of the
lines into `all_evset_addrs` and the printing are left out: nothing the call returns depends
on them.

## Main definitions

* `EvCache.singleL3FromCands` — the part of the call after the L3 candidates are filtered.
* `EvCache.buildSingleL3Evset` — `build_single_l3_evset`.

## Main results

* `EvCache.finalL3Retry_drawn` — for every test and clock, a set `final_l3_evset` reports as
  evicting is drawn from the window it was given, and does not hold its own target.
* `EvCache.finalL3Retry_ideal` — against the ideal oracle, that set is congruent to its
  target and has at least `n_ways` lines.
* `EvCache.buildSingleL3Evset_safe` — the call returns without a fault, and a set it
  returns is made of distinct lines of the L3 buffer, not its target, within `ev_cap`.
* `EvCache.buildSingleL3Evset_ideal` — against the ideal L3 oracle, a set it returns is
  congruent to its target and has at least `n_ways` lines.

## References

* `src/src/evset.c`, lines 1584-1919 (`build_single_l3_evset`), 1032-1140
  (`build_single_l2_evset`), 144-217 (`evcands_populate`) and 1540-1582 (`final_l3_evset`).
-/

namespace EvCache

open CArray

variable {σ : Type}

/-! ## Model -/

section Model

variable (detailedL2 detailedL3 : σ → ℕ → List ℕ → EvTestRes × σ) (timedOut : σ → Bool)
  (trial : σ → List ℕ → List ℕ → List ℕ × σ) (l2 l3 : CacheInfo)

/-- The part of `build_single_l3_evset` after the L3 candidates are filtered
(`evset.c:1693-1830`), under the L3 configuration `conf`: with at least two candidates, the
last one is the target and leaves the pool; the pool must evict it; `final_l3_evset` builds
the set in `n_ways · cap_scaling` slots, and `verify_evset` checks it against the target. -/
def singleL3FromCands (conf : EvBuildConf) (cands : EvCands) (st : σ) :
    Except Fault (Option (EvSet ℕ) × σ) :=
  if cands.count ≤ 1 then pure (none, st) else
    let target := cands.addrs.getD (cands.count - 1) 0
    let pool : Pool := ⟨[], cands.addrs, cands.count - 1⟩
    let (res, st) := testEviction detailedL3 st target pool.live
    if res = .fail then pure (none, st) else do
      let ev : EvSet ℕ := ⟨List.replicate (l3.n_ways * conf.cap_scaling) 0, 0,
        l3.n_ways * conf.cap_scaling, target, conf, l3⟩
      let (build_error, ev, _, st) ← finalL3Evset detailedL3 timedOut ev pool st
      if build_error then pure (none, st) else
        let (res, st) := verifyEvset detailedL3 st ev target
        if res = .ok then pure (some ev, st) else pure (none, st)

/-- `build_single_l3_evset()` (`evset.c:1584`), given `g_config.cand_scaling`, the measured
thresholds, the `n_retries` of the static L3 configuration and the buffers `evb₂` and `evb₃`
of the L2 and L3 candidates. It returns the one set, `none` for `NULL`. -/
def buildSingleL3Evset (cand_scaling : ℕ) (l2_thresh l3_thresh : ℤ) (n_retries : ℕ)
    (evb₂ evb₃ : EvBuffer) (st : σ) : Except Fault (Option (EvSet ℕ) × σ) := do
  let l2_conf := initDefL2Conf cand_scaling l2_thresh
  -- the candidates `build_single_l2_evset(NULL, ...)` populates for itself (`evset.c:1039-1053`)
  let (cands₂, st) ← evcandsPopulate trial l2_conf evb₂ 0 none st
  match cands₂ with
  | none => pure (none, st)
  | some cands₂ =>
    let (l2ev, _, st) ← buildSingleL2Evset detailedL2 l2 cand_scaling l2_thresh st
      (cands₂.addrs.take cands₂.count) 0 []
    match l2ev with
    | none => pure (none, st)
    | some l2ev =>
      let (cands₃, st) ← evcandsPopulate trial l2_conf evb₃ 0 (some l2ev) st
      match cands₃ with
      | none => pure (none, st)
      | some cands₃ =>
        singleL3FromCands detailedL3 timedOut l3 (initDefL3Conf cand_scaling l3_thresh n_retries)
          cands₃ st

end Model

/-! ## The retry loop of `final_l3_evset` -/

lemma Pool.live_setLive (p : Pool) {live : List ℕ} (h : live.length = p.count) :
    (p.setLive live).live = live := by
  simp [Pool.live, Pool.setLive, ← h]

lemma nodup_of_subperm {l₁ l₂ : List ℕ} (h : l₁.Subperm l₂) (hl : l₂.Nodup) : l₁.Nodup := by
  obtain ⟨l, hp, hs⟩ := h
  exact hp.nodup (hl.sublist hs)

/-- The last line of a window with no repeated line is not among the others. -/
lemma getD_not_mem_take {l : List ℕ} (hl : l.Nodup) {n : ℕ} (hn : n < l.length) :
    l.getD n 0 ∉ l.take n := by
  have hmem : l.getD n 0 ∈ l.drop n := by
    rw [List.getD_eq_getElem _ _ hn, List.mem_drop_iff_getElem]
    exact ⟨0, by simpa using hn, rfl⟩
  exact fun h => List.disjoint_take_drop hl le_rfl h hmem

/-- A set `build_evset_zhao` copies without an error is a prefix of the array it leaves. -/
lemma buildEvsetZhao_lines_sublist {α : Type} {test : σ → α → List α → EvRes × σ} {st : σ}
    {target : α} {ev : EvSet α} {cands : List α} {out : ZhaoOut σ α}
    (h : buildEvsetZhao test st target ev cands = .ok out) (herr : out.has_err = false) :
    out.evset.lines.Sublist out.cands := by
  rcases buildEvsetZhao_eq_ok h with ⟨-, rfl⟩ | ⟨-, s, -, -, hle, rfl⟩
  · cases herr
  · rw [lines_of_copy ev s.cands hle]
    exact List.take_sublist _ _

section Drawn

variable (detailed : σ → ℕ → List ℕ → EvTestRes × σ) (timedOut : σ → Bool)

/-- **What a retry loop that reports an evicting set did first.** The build on the live
window either reported an error, and the rest of the loop found the set; or the copied set
evicted the target and was pruned once more; or it did not, and the rest of the loop found
the set for the last line of the permuted window. -/
lemma finalL3Retry_true {n : ℕ} {ev ev' : EvSet ℕ} {pool pool' : Pool} {st st' : σ}
    (h : finalL3Retry detailed timedOut (n + 1) ev pool st = .ok (true, ev', pool', st')) :
    ∃ out, buildEvsetZhao (testEviction detailed) st ev.target_addr { ev with size := 0 }
        pool.live = .ok out ∧
      ((out.has_err = true ∧ finalL3Retry detailed timedOut n out.evset
          (pool.setLive out.cands) out.st = .ok (true, ev', pool', st')) ∨
       (out.has_err = false ∧ ∃ st₁ addrs size,
          testEviction detailed out.st ev.target_addr out.evset.lines = (.ok, st₁) ∧
          pruneEvcands (testEviction detailed) st₁ ev.target_addr out.evset.addrs
            out.evset.size = .ok (addrs, size, st') ∧
          ev' = { out.evset with addrs := addrs, size := size }) ∨
       (out.has_err = false ∧ 0 < pool.count ∧ ∃ st₁, finalL3Retry detailed timedOut n
          { out.evset with target_addr := (pool.setLive out.cands).arr.getD (pool.count - 1) 0 }
          { pool.setLive out.cands with count := pool.count - 1 } st₁ =
            .ok (true, ev', pool', st'))) := by
  simp only [finalL3Retry] at h
  obtain ⟨out, hout, h⟩ := bind_eq_ok h
  refine ⟨out, hout, ?_⟩
  cases herr : out.has_err with
  | true =>
    rw [herr, if_pos rfl] at h
    exact .inl ⟨rfl, h⟩
  | false =>
    rcases htest : testEviction detailed out.st ev.target_addr out.evset.lines with ⟨res, st₁⟩
    simp only [herr, htest, Bool.false_eq_true, if_false, Pool.setLive_count] at h
    cases res with
    | ok =>
      -- the set evicts its target: the second pruning, whose result is returned
      rw [if_pos rfl] at h
      obtain ⟨⟨addrs, size, st₂⟩, hprune, h⟩ := bind_eq_ok h
      simp only [pure_eq_ok, Except.ok.injEq, Prod.mk.injEq] at h
      obtain ⟨-, rfl, -, rfl⟩ := h
      exact .inr (.inl ⟨rfl, st₁, addrs, size, rfl, hprune, rfl⟩)
    | fail =>
      simp only [reduceCtorEq, if_false] at h
      split_ifs at h with hcount htime
      · cases h
      · cases h
      · exact .inr (.inr ⟨rfl, Nat.pos_of_ne_zero hcount, st₁, h⟩)

/-- **A set `final_l3_evset` reports as evicting is drawn from its window**, for every test
and clock: its lines are a sub-multiset of the live window it was given, its target is the
given one or a line of that window, and the target is not among its lines. The window must
have no repeated line and must not hold the target, as `build_single_l3_evset` sets it up.

**Proof sketch.** Induction on the attempts left, through `finalL3Retry_true`. A build
permutes the window; a new target is the last line of the permuted window, which then leaves
it; the second pruning keeps a prefix of a permutation of the copied prefix. -/
lemma finalL3Retry_drawn : ∀ (n : ℕ) (ev : EvSet ℕ) (pool : Pool) (st : σ),
    pool.count ≤ pool.arr.length → ev.addrs.length = ev.ev_cap → pool.live.Nodup →
    ev.target_addr ∉ pool.live → ∀ {ev' : EvSet ℕ} {pool' : Pool} {st' : σ},
    finalL3Retry detailed timedOut n ev pool st = .ok (true, ev', pool', st') →
      ev'.lines.Subperm pool.live ∧ ev'.target_addr ∉ ev'.lines ∧
      (ev'.target_addr = ev.target_addr ∨ ev'.target_addr ∈ pool.live) := by
  intro n
  induction n with
  | zero =>
    intro ev pool st _ _ _ _ ev' pool' st' h
    simp [finalL3Retry] at h
  | succ n ih =>
    intro ev pool st hcount hcap hnd htarget ev' pool' st' h
    obtain ⟨out, hout, hcases⟩ := finalL3Retry_true detailed timedOut h
    obtain ⟨out', hout', hperm, hcap', haddrs, -⟩ := buildEvsetZhao_total
      (testEviction detailed) st ev.target_addr { ev with size := 0 } pool.live hcap
    obtain rfl : out = out' := Except.ok.inj (hout.symm.trans hout')
    obtain ⟨htarget', -, -, hsize⟩ := buildEvsetZhao_evset hout
    have hlen : out.cands.length = pool.count := by
      rw [hperm.length_eq, Pool.live, List.length_take, Nat.min_eq_left hcount]
    have hlive : (pool.setLive out.cands).live = out.cands := Pool.live_setLive pool hlen
    have hnd' : out.cands.Nodup := hperm.symm.nodup hnd
    have hnot : ev.target_addr ∉ out.cands := fun hx => htarget (hperm.subset hx)
    have hcount' : (pool.setLive out.cands).count ≤ (pool.setLive out.cands).arr.length := by
      simp [Pool.setLive, hlen]
    rcases hcases with ⟨-, h⟩ | ⟨herr, st₁, addrs, size, -, hprune, rfl⟩ |
      ⟨-, hpos, st₁, h⟩
    · -- a build error: the next attempt runs on the permuted window
      obtain ⟨hsub, hnot', htgt⟩ := ih out.evset _ out.st hcount' (haddrs.trans hcap'.symm)
        (by rw [hlive]; exact hnd') (by rw [hlive, htarget']; exact hnot) h
      rw [hlive] at hsub htgt
      refine ⟨hsub.trans hperm.subperm, hnot', ?_⟩
      rcases htgt with htgt | htgt
      · exact .inl (htgt.trans htarget')
      · exact .inr (hperm.subset htgt)
    · -- the pruned copy keeps a prefix of a permutation of the copied prefix
      obtain ⟨addrs', k, st₂, hprune', hk, hpo⟩ := pruneEvcands_spec (testEviction detailed)
        ev.target_addr st₁ out.evset.addrs (hsize herr)
      obtain ⟨rfl, rfl, -⟩ : addrs' = addrs ∧ k = size ∧ st₂ = st' := by
        simpa using hprune'.symm.trans hprune
      have hsub : (addrs'.take k).Subperm pool.live :=
        (((List.take_sublist_take_left hk).subperm.trans hpo.2.1.subperm).trans
          (buildEvsetZhao_lines_sublist hout herr).subperm).trans hperm.subperm
      refine ⟨hsub, fun hx => htarget (htarget' ▸ hsub.subset hx), .inl htarget'⟩
    · -- a new target: the last line of the permuted window, which leaves the window
      have hpre : (pool.setLive out.cands).arr.take (pool.count - 1) =
          out.cands.take (pool.count - 1) := by
        simp [Pool.setLive, List.take_append_of_le_length (show pool.count - 1 ≤ out.cands.length
          by omega)]
      have hlast : (pool.setLive out.cands).arr.getD (pool.count - 1) 0 =
          out.cands.getD (pool.count - 1) 0 := by
        simp [Pool.setLive, List.getD_eq_getElem?_getD, List.getElem?_append_left
          (show pool.count - 1 < out.cands.length by omega)]
      have hwin : ({ pool.setLive out.cands with count := pool.count - 1 } : Pool).live =
          out.cands.take (pool.count - 1) := hpre
      have hin : out.cands.getD (pool.count - 1) 0 ∈ out.cands := by
        rw [List.getD_eq_getElem _ _ (by omega)]
        exact List.getElem_mem _
      obtain ⟨hsub, hnot', htgt⟩ := ih
        { out.evset with target_addr := (pool.setLive out.cands).arr.getD (pool.count - 1) 0 }
        { pool.setLive out.cands with count := pool.count - 1 } st₁ (by simp [Pool.setLive]; omega)
        (haddrs.trans hcap'.symm) (hwin ▸ hnd'.sublist (List.take_sublist _ _))
        (by rw [hwin, hlast]; exact getD_not_mem_take hnd' (by omega)) h
      rw [hwin] at hsub htgt
      have hsub' : (out.cands.take (pool.count - 1)).Subperm pool.live :=
        (List.take_sublist _ _).subperm.trans hperm.subperm
      refine ⟨hsub.trans hsub', hnot', .inr ?_⟩
      rcases htgt with htgt | htgt
      · rw [htgt, hlast]
        exact hperm.subset hin
      · exact hsub'.subset htgt

end Drawn

/-! ## Against the ideal oracle -/

section Ideal

variable {r : ℕ → ℕ → Prop} [DecidableRel r] (hr : Equivalence r) (W : ℕ)
  (timedOut : Unit → Bool)

include hr in
/-- **Against the ideal oracle, a set `final_l3_evset` reports as evicting is congruent to
its target** and has at least `n_ways` lines, with `n_ways ≥ 1` and `extra_cong = 0`.

**Proof sketch.** Induction on the attempts left, through `finalL3Retry_true`. On the
attempt that succeeds, the builder copied lines congruent to the target
(`buildEvsetZhao_lines_ideal`), and the test passed, so there are at least `n_ways` of them;
the second pruning then keeps the whole set (`pruneEvcands_congruent`). A new target changes
neither the geometry nor the configuration. -/
lemma finalL3Retry_ideal (hW : 0 < W) : ∀ (n : ℕ) (ev : EvSet ℕ) (pool : Pool),
    ev.target_cache.n_ways = W → ev.build_conf.extra_cong = 0 →
    ∀ {ev' : EvSet ℕ} {pool' : Pool},
    finalL3Retry (idealDetailed r W) timedOut n ev pool () = .ok (true, ev', pool', ()) →
      (∀ x ∈ ev'.lines, r x ev'.target_addr) ∧ W ≤ ev'.lines.length := by
  intro n
  induction n with
  | zero =>
    intro ev pool _ _ ev' pool' h
    simp [finalL3Retry] at h
  | succ n ih =>
    intro ev pool hways hextra ev' pool' h
    obtain ⟨out, hout, hcases⟩ := finalL3Retry_true (idealDetailed r W) timedOut h
    rw [testEviction_idealDetailed] at hout
    obtain ⟨htarget, hcache, hconf, hsize⟩ := buildEvsetZhao_evset hout
    rcases hcases with ⟨-, h⟩ | ⟨herr, st₁, addrs, size, htest, hprune, rfl⟩ |
      ⟨-, -, st₁, h⟩
    · exact ih out.evset _ (by rw [hcache]; exact hways) (hconf ▸ hextra) h
    · rw [testEviction_idealDetailed] at htest hprune
      have hcount : W ≤ congCount r ev.target_addr out.evset.lines :=
        le_congCount_of_idealTest r W htest
      have hcong : ∀ x ∈ out.evset.lines, r x ev.target_addr := by
        rw [← hways] at hout
        exact buildEvsetZhao_lines_ideal hr ev.target_addr { ev with size := 0 } pool.live
          (hways ▸ hW) hextra hout herr
      have hlines : W ≤ out.evset.lines.length :=
        hcount.trans (congCount_le_length r ev.target_addr out.evset.lines)
      have hW' : W ≤ out.evset.size :=
        hlines.trans (by simp [EvSet.lines])
      -- the second pruning keeps every line of a congruent set
      rw [pruneEvcands_congruent W ev.target_addr hr out.evset.addrs (hsize herr) hcong hW']
        at hprune
      obtain ⟨rfl, rfl, -⟩ : out.evset.addrs = addrs ∧ out.evset.size = size ∧ () = () := by
        simpa using hprune
      exact ⟨fun x hx => htarget ▸ hcong x hx, hlines⟩
    · exact ih _ _ (by rw [← hways, ← hcache]) (hconf ▸ hextra) h

end Ideal

/-! ## The whole call -/

section Whole

variable (detailedL2 detailedL3 : σ → ℕ → List ℕ → EvTestRes × σ) (timedOut : σ → Bool)
  (trial : σ → List ℕ → List ℕ → List ℕ × σ) (l2 l3 : CacheInfo)

/-- The retry loop of `build_single_l2_evset` returns, for every test, and a set it returns
is on the geometry it was given. -/
lemma singleRetry_total (all_addrs : List ℕ) : ∀ (n : ℕ) (evset : EvSet ℕ) (cands : List ℕ)
    (t : ℕ) (st : σ), evset.addrs.length = evset.ev_cap →
    ∃ res cands' st', singleRetry detailedL2 l2 all_addrs n evset cands t st =
        .ok (res, cands', st') ∧ ∀ ev, res = some ev → ev.target_cache = evset.target_cache := by
  intro n
  induction n with
  | zero =>
    intro evset cands t st _
    exact ⟨none, cands, st, rfl, by simp⟩
  | succ n ih =>
    intro evset cands t st hcap
    obtain ⟨out, hout, -, hcap', haddrs, -⟩ := buildEvsetZhao_total (testEviction detailedL2) st
      t { evset with size := 0, target_addr := t } cands hcap
    obtain ⟨-, hcache, -, -⟩ := buildEvsetZhao_evset hout
    rcases hf : singleFailed detailedL2 l2 out t with ⟨failed, st₁⟩
    cases failed with
    | false =>
      refine ⟨some out.evset, out.cands, st₁, by simp [singleRetry, hout, hf], ?_⟩
      rintro ev ⟨⟩
      exact hcache
    | true =>
      -- a failed check: a fresh target, and the rest of the attempts
      rcases hp : pickL2Target detailedL2 st₁ out.cands t all_addrs with ⟨_ | ⟨t', c'⟩, st₂⟩
      · exact ⟨none, out.cands, st₂, by simp [singleRetry, hout, hf, hp], by simp⟩
      · obtain ⟨res, c'', st₃, heq, hres⟩ := ih out.evset c' t' st₂ (haddrs.trans hcap'.symm)
        exact ⟨res, c'', st₃, by simp [singleRetry, hout, hf, hp, heq],
          fun ev hev => (hres ev hev).trans hcache⟩

lemma buildSingleL2Evset_total (cand_scaling : ℕ) (l2_thresh : ℤ) (st : σ) (cands : List ℕ)
    (target : ℕ) (all_addrs : List ℕ) :
    ∃ res cands' st', buildSingleL2Evset detailedL2 l2 cand_scaling l2_thresh st cands target
        all_addrs = .ok (res, cands', st') ∧ ∀ ev, res = some ev → ev.target_cache = l2 := by
  unfold buildSingleL2Evset
  rcases hp : (if target = 0 then pickL2Target detailedL2 st cands 0 all_addrs
      else (some (target, cands), st)) with ⟨_ | ⟨t, c⟩, st₁⟩
  · exact ⟨none, cands, st₁, rfl, by simp⟩
  · exact singleRetry_total detailedL2 l2 all_addrs _ _ c t st₁ (by simp)

lemma nodup_bufLines (evb : EvBuffer) (offset : ℕ) : (bufLines evb offset).Nodup := by
  refine List.nodup_range.map fun a b h => ?_
  simp only [pageSize] at h
  omega

/-- **`evcands_populate` returns** when the filter set has a way, and the candidates it
keeps are a sub-multiset of the lines of the buffer, `count` of them. -/
lemma evcandsPopulate_spec (l2_conf : EvBuildConf) (evb : EvBuffer) (offset : ℕ)
    (filter_ev : Option (EvSet ℕ)) (st : σ)
    (hf : ∀ ev, filter_ev = some ev → 1 ≤ ev.target_cache.n_ways) :
    ∃ cands st', evcandsPopulate trial l2_conf evb offset filter_ev st = .ok (cands, st') ∧
      ∀ c, cands = some c → c.count = c.addrs.length ∧ c.addrs.Subperm (bufLines evb offset) := by
  have hall : ∀ c : EvCands, c = ⟨bufLines evb offset, evb.n_pages⟩ →
      c.count = c.addrs.length ∧ c.addrs.Subperm (bufLines evb offset) := by
    rintro c rfl
    exact ⟨(length_bufLines evb offset).symm, List.Subperm.refl _⟩
  cases filter_ev with
  | none => exact ⟨_, st, rfl, fun c hc => hall c (Option.some.inj hc).symm⟩
  | some ev =>
    by_cases hu : cacheUncertainty ev.target_cache = 1
    · exact ⟨_, st, by simp [evcandsPopulate, hu], fun c hc => hall c (Option.some.inj hc).symm⟩
    · -- the filtered lines stand at the front of a permutation of the buffer's lines
      obtain ⟨addrs', heq, htake, hperm⟩ := evcandsFilterBatch_eq trial l2_conf ev (hf ev rfl)
        (le_of_eq (length_bufLines evb offset).symm) 0 st
      have hsub : (addrs'.take (filterVotes trial l2_conf ev.lines (batchesOf
          (batchSize ev.target_cache.n_ways) ((bufLines evb offset).take evb.n_pages))
          st).1.length).Subperm (bufLines evb offset) :=
        (List.take_sublist _ _).subperm.trans hperm.perm.subperm
      simp only [evcandsPopulate, hu, if_false, heq, ok_bind]
      split_ifs
      · exact ⟨none, _, rfl, by simp⟩
      · refine ⟨_, _, rfl, ?_⟩
        rintro c ⟨⟩
        exact ⟨by rw [htake], hsub⟩

/-- `final_l3_evset` reports no build error exactly when its retry loop found a set that
evicts. -/
lemma finalL3Evset_false {ev ev' : EvSet ℕ} {pool pool' : Pool} {st st' : σ}
    (h : finalL3Evset detailedL3 timedOut ev pool st = .ok (false, ev', pool', st')) :
    finalL3Retry detailedL3 timedOut ev.build_conf.verify_retry ev pool st =
      .ok (true, ev', pool', st') := by
  unfold finalL3Evset at h
  obtain ⟨⟨can_evict, e, p, s⟩, hr, h⟩ := bind_eq_ok h
  simp only [pure_eq_ok, Except.ok.injEq, Prod.mk.injEq, Bool.not_eq_false'] at h
  obtain ⟨rfl, rfl, rfl, rfl⟩ := h
  exact hr

/-- A set the part after the filtering returns was built by `final_l3_evset` from the
candidates without the last one, for that last candidate as the first target. -/
lemma singleL3FromCands_some {conf : EvBuildConf} {cands : EvCands} {st st' : σ}
    {ev : EvSet ℕ}
    (h : singleL3FromCands detailedL3 timedOut l3 conf cands st = .ok (some ev, st')) :
    1 < cands.count ∧ ∃ pool' st₁ st₂, finalL3Retry detailedL3 timedOut conf.verify_retry
      ⟨List.replicate (l3.n_ways * conf.cap_scaling) 0, 0, l3.n_ways * conf.cap_scaling,
        cands.addrs.getD (cands.count - 1) 0, conf, l3⟩ ⟨[], cands.addrs, cands.count - 1⟩ st₁ =
        .ok (true, ev, pool', st₂) := by
  unfold singleL3FromCands at h
  split_ifs at h with h1
  · cases h
  refine ⟨by omega, ?_⟩
  rcases ht : testEviction detailedL3 st (cands.addrs.getD (cands.count - 1) 0)
    (Pool.live ⟨[], cands.addrs, cands.count - 1⟩) with ⟨res, st₁⟩
  dsimp only at h
  rw [ht] at h
  dsimp only at h
  split_ifs at h with hres
  · cases h
  obtain ⟨⟨build_error, e, p, s⟩, hfin, h⟩ := bind_eq_ok h
  cases build_error with
  | true => cases h
  | false =>
    rcases hv : verifyEvset detailedL3 s e (cands.addrs.getD (cands.count - 1) 0) with ⟨res', s'⟩
    simp only [hv, Bool.false_eq_true, if_false] at h
    split_ifs at h
    · cases h
      exact ⟨p, st₁, s, finalL3Evset_false detailedL3 timedOut hfin⟩
    · cases h

/-- The pool of `build_single_l3_evset`, every candidate but the last, lies inside the
candidates. -/
lemma inside_dropLast {cands : EvCands} (hcount : cands.count = cands.addrs.length) :
    (⟨[], cands.addrs, cands.count - 1⟩ : Pool).Inside cands.addrs := by
  simpa [hcount] using Pool.Inside.init cands.addrs

/-- The part after the filtering returns, for every test and clock. -/
lemma singleL3FromCands_ok (conf : EvBuildConf) (cands : EvCands) (st : σ)
    (hcount : cands.count = cands.addrs.length) :
    ∃ res st', singleL3FromCands detailedL3 timedOut l3 conf cands st = .ok (res, st') := by
  unfold singleL3FromCands
  split_ifs with h1
  · exact ⟨none, st, rfl⟩
  dsimp only
  rcases ht : testEviction detailedL3 st (cands.addrs.getD (cands.count - 1) 0)
    (Pool.live ⟨[], cands.addrs, cands.count - 1⟩) with ⟨res, st₁⟩
  dsimp only
  split_ifs
  · exact ⟨none, st₁, rfl⟩
  obtain ⟨build_error, ev', pool', st₂, hfin, -, -⟩ := finalL3Evset_spec detailedL3 timedOut
    ⟨List.replicate (l3.n_ways * conf.cap_scaling) 0, 0, l3.n_ways * conf.cap_scaling,
      cands.addrs.getD (cands.count - 1) 0, conf, l3⟩ _ st₁ (inside_dropLast hcount) (by simp)
  rw [hfin, ok_bind]
  cases build_error with
  | true => exact ⟨none, st₂, rfl⟩
  | false =>
    rcases hv : verifyEvset detailedL3 st₂ ev' (cands.addrs.getD (cands.count - 1) 0) with
      ⟨res', st₃⟩
    simp only [Bool.false_eq_true, if_false]
    split_ifs
    · exact ⟨some ev', st₃, rfl⟩
    · exact ⟨none, st₃, rfl⟩

/-- **The part after the filtering is safe**, for every test and clock, on candidates with
no repeated line: it returns, and a set it returns is made of distinct candidates, does not
hold its target, which is a candidate, and fits `n_ways · cap_scaling` slots.

**Proof sketch.** The pool is the candidates without the last one, which is the first
target; `finalL3Retry_drawn` gives the lines and the target of the set, `finalL3Retry_spec`
its size. -/
lemma singleL3FromCands_safe (conf : EvBuildConf) (cands : EvCands) (st : σ)
    (hcount : cands.count = cands.addrs.length) (hnd : cands.addrs.Nodup) :
    ∃ res st', singleL3FromCands detailedL3 timedOut l3 conf cands st = .ok (res, st') ∧
      ∀ ev, res = some ev → ev.lines.Nodup ∧ ev.target_addr ∉ ev.lines ∧
        ev.target_addr ∈ cands.addrs ∧ (∀ x ∈ ev.lines, x ∈ cands.addrs) ∧
        ev.lines.length ≤ l3.n_ways * conf.cap_scaling := by
  obtain ⟨res, st', hres⟩ := singleL3FromCands_ok detailedL3 timedOut l3 conf cands st hcount
  refine ⟨res, st', hres, ?_⟩
  rintro ev rfl
  obtain ⟨h1, pool', st₁, st₂, hfin⟩ := singleL3FromCands_some detailedL3 timedOut l3 hres
  have hlive : (⟨[], cands.addrs, cands.count - 1⟩ : Pool).live =
      cands.addrs.take (cands.count - 1) := rfl
  have hwin : cands.addrs.take (cands.count - 1) ⊆ cands.addrs :=
    (List.take_sublist _ _).subset
  obtain ⟨hsub, hnot, htgt⟩ := finalL3Retry_drawn detailedL3 timedOut _ _ _ st₁
    (by simp; omega) (by simp) (by rw [hlive]; exact hnd.sublist (List.take_sublist _ _))
    (by rw [hlive]; exact getD_not_mem_take hnd (by omega)) hfin
  obtain ⟨c, e, p, s, heq, -, hb⟩ := finalL3Retry_spec detailedL3 timedOut conf.verify_retry
    ⟨List.replicate (l3.n_ways * conf.cap_scaling) 0, 0, l3.n_ways * conf.cap_scaling,
      cands.addrs.getD (cands.count - 1) 0, conf, l3⟩ _ st₁ (inside_dropLast hcount) (by simp)
  obtain ⟨rfl, rfl, -, -⟩ : c = true ∧ e = ev ∧ p = pool' ∧ s = st₂ := by
    simpa using heq.symm.trans hfin
  rw [hlive] at hsub htgt
  refine ⟨nodup_of_subperm hsub (hnd.sublist (List.take_sublist _ _)), hnot, ?_,
    fun x hx => hwin (hsub.subset hx), (List.length_take_le _ _).trans (hb rfl).2⟩
  rcases htgt with htgt | htgt
  · rw [htgt, List.getD_eq_getElem _ _ (by omega)]
    exact List.getElem_mem _
  · exact hwin htgt

/-- **`build_single_l3_evset` is safe**, for every L2 and L3 test, filter trial, clock and
buffers, with an L2 cache of at least one way: it returns without a fault, and a set it
returns is made of distinct lines of the L3 buffer at page offset `0`, does not hold its
target, which is a line of that buffer too, and has at most `2 · n_ways` lines.

**Proof sketch.** The L2 set, when there is one, is on the L2 geometry
(`buildSingleL2Evset_total`), so the filtering returns (`evcandsPopulate_spec`) candidates
that are distinct lines of the buffer (`nodup_bufLines`); `singleL3FromCands_safe` does the
rest. -/
theorem buildSingleL3Evset_safe (cand_scaling : ℕ) (l2_thresh l3_thresh : ℤ) (n_retries : ℕ)
    (evb₂ evb₃ : EvBuffer) (st : σ) (hl2 : 0 < l2.n_ways) :
    ∃ res st', buildSingleL3Evset detailedL2 detailedL3 timedOut trial l2 l3 cand_scaling
        l2_thresh l3_thresh n_retries evb₂ evb₃ st = .ok (res, st') ∧
      ∀ ev, res = some ev → ev.lines.Nodup ∧ ev.target_addr ∉ ev.lines ∧
        ev.target_addr ∈ bufLines evb₃ 0 ∧ (∀ x ∈ ev.lines, x ∈ bufLines evb₃ 0) ∧
        ev.lines.length ≤ l3.n_ways * 2 := by
  have hpop₂ : evcandsPopulate trial (initDefL2Conf cand_scaling l2_thresh) evb₂ 0 none st =
      .ok (some ⟨bufLines evb₂ 0, evb₂.n_pages⟩, st) := rfl
  obtain ⟨l2res, c₂, st₁, hl2ev, hcache⟩ := buildSingleL2Evset_total detailedL2 l2 cand_scaling
    l2_thresh st ((bufLines evb₂ 0).take evb₂.n_pages) 0 []
  cases l2res with
  | none => exact ⟨none, st₁, by simp [buildSingleL3Evset, hpop₂, hl2ev], by simp⟩
  | some l2ev =>
    obtain ⟨c₃, st₂, hpop₃, hc₃⟩ := evcandsPopulate_spec trial (initDefL2Conf cand_scaling l2_thresh)
      evb₃ 0 (some l2ev) st₁ (by rintro _ ⟨⟩; rw [hcache l2ev rfl]; exact hl2)
    cases c₃ with
    | none => exact ⟨none, st₂, by simp [buildSingleL3Evset, hpop₂, hl2ev, hpop₃], by simp⟩
    | some c₃ =>
      obtain ⟨hcount, hsub⟩ := hc₃ c₃ rfl
      obtain ⟨res, st₃, hres, hsafe⟩ := singleL3FromCands_safe detailedL3 timedOut l3
        (initDefL3Conf cand_scaling l3_thresh n_retries) c₃ st₂ hcount (nodup_of_subperm hsub (nodup_bufLines evb₃ 0))
      refine ⟨res, st₃, by simp [buildSingleL3Evset, hpop₂, hl2ev, hpop₃, hres], ?_⟩
      intro ev hev
      obtain ⟨hnd, hnot, htgt, hlines, hlen⟩ := hsafe ev hev
      exact ⟨hnd, hnot, hsub.subset htgt, fun x hx => hsub.subset (hlines x hx), hlen⟩

/-- Three pages for each buffer, an L2 test that any line evicts and the ideal L3 test of the
page parity, with one way: the hypothesis holds. -/
theorem buildSingleL3Evset_safe_pages : 0 < (⟨64, 6, 6, 1, 1, 0⟩ : CacheInfo).n_ways ∧
    ∃ res st', buildSingleL3Evset (fun _ _ S => (if 1 ≤ S.length then .evPos else .evNeg, ()))
        (idealDetailed (fun x y : ℕ => x / 4096 % 2 = y / 4096 % 2) 1) (fun _ => false)
        (fun _ _ batch => (batch.map fun _ => 0, ())) ⟨64, 6, 6, 1, 1, 0⟩ ⟨64, 6, 10, 1, 1, 0⟩
        0 0 0 0 ⟨4096, 3, rfl⟩ ⟨4096, 3, rfl⟩ () = .ok (res, st') ∧
      ∀ ev, res = some ev → ev.lines.Nodup ∧ ev.target_addr ∉ ev.lines ∧
        ev.target_addr ∈ bufLines ⟨4096, 3, rfl⟩ 0 ∧
        (∀ x ∈ ev.lines, x ∈ bufLines ⟨4096, 3, rfl⟩ 0) ∧ ev.lines.length ≤ 1 * 2 :=
  ⟨by decide, buildSingleL3Evset_safe _ _ _ _ ⟨64, 6, 6, 1, 1, 0⟩ ⟨64, 6, 10, 1, 1, 0⟩ 0 0 0 0
    ⟨4096, 3, rfl⟩ ⟨4096, 3, rfl⟩ () (by decide)⟩

/-- A set the call returns was returned by the part after the filtering, under the L3
configuration. -/
lemma buildSingleL3Evset_some {cand_scaling : ℕ} {l2_thresh l3_thresh : ℤ} {n_retries : ℕ}
    {evb₂ evb₃ : EvBuffer} {st st' : σ} {ev : EvSet ℕ}
    (h : buildSingleL3Evset detailedL2 detailedL3 timedOut trial l2 l3 cand_scaling l2_thresh
      l3_thresh n_retries evb₂ evb₃ st = .ok (some ev, st')) :
    ∃ c₃ st₂, singleL3FromCands detailedL3 timedOut l3
      (initDefL3Conf cand_scaling l3_thresh n_retries) c₃ st₂ = .ok (some ev, st') := by
  unfold buildSingleL3Evset at h
  obtain ⟨⟨_ | c₂, st₁⟩, -, h⟩ := bind_eq_ok h
  · cases h
  obtain ⟨⟨_ | l2ev, c, st₂⟩, -, h⟩ := bind_eq_ok h
  · cases h
  obtain ⟨⟨_ | c₃, st₃⟩, -, h⟩ := bind_eq_ok h
  · cases h
  exact ⟨c₃, st₃, h⟩

end Whole

section IdealWhole

variable {r : ℕ → ℕ → Prop} [DecidableRel r]

/-- **Against the ideal L3 oracle, a set `build_single_l3_evset` returns is congruent to its
target** and has at least `n_ways` lines, for every L2 test, filter trial, clock and
buffers, with an L3 cache of at least one way. The target may have moved from the last
filtered candidate during the retries of `final_l3_evset`; the set is congruent to the one it
ends with.

**Proof sketch.** The set was reported as evicting by the retry loop of `final_l3_evset`,
started on the L3 geometry with `extra_cong = 0` (`buildSingleL3Evset_some`,
`singleL3FromCands_some`); `finalL3Retry_ideal` says what such a set is. -/
theorem buildSingleL3Evset_ideal (hr : Equivalence r)
    (detailedL2 : Unit → ℕ → List ℕ → EvTestRes × Unit) (timedOut : Unit → Bool)
    (trial : Unit → List ℕ → List ℕ → List ℕ × Unit) (l2 l3 : CacheInfo) (hW : 0 < l3.n_ways)
    (cand_scaling : ℕ) (l2_thresh l3_thresh : ℤ) (n_retries : ℕ) (evb₂ evb₃ : EvBuffer)
    {ev : EvSet ℕ}
    (h : buildSingleL3Evset detailedL2 (idealDetailed r l3.n_ways) timedOut trial l2 l3
      cand_scaling l2_thresh l3_thresh n_retries evb₂ evb₃ () = .ok (some ev, ())) :
    (∀ x ∈ ev.lines, r x ev.target_addr) ∧ l3.n_ways ≤ ev.lines.length := by
  obtain ⟨c₃, st₂, hc⟩ := buildSingleL3Evset_some detailedL2 _ timedOut trial l2 l3 h
  obtain ⟨-, pool', st₃, st₄, hfin⟩ := singleL3FromCands_some _ timedOut l3 hc
  exact finalL3Retry_ideal hr l3.n_ways timedOut hW _ _ _ rfl rfl hfin

/-- The run of `buildSingleL3Evset_safe_pages`: the target is the last page, `12288`, and the
set is the first page, of the same parity. -/
theorem buildSingleL3Evset_ideal_pages :
    buildSingleL3Evset (fun _ _ S => (if 1 ≤ S.length then .evPos else .evNeg, ()))
        (idealDetailed (fun x y : ℕ => x / 4096 % 2 = y / 4096 % 2) 1) (fun _ => false)
        (fun _ _ batch => (batch.map fun _ => 0, ())) ⟨64, 6, 6, 1, 1, 0⟩ ⟨64, 6, 10, 1, 1, 0⟩
        0 0 0 0 ⟨4096, 3, rfl⟩ ⟨4096, 3, rfl⟩ () =
      .ok (some ⟨[4096, 0], 1, 2, 12288, initDefL3Conf 0 0 0, ⟨64, 6, 10, 1, 1, 0⟩⟩, ()) ∧
    (∀ x ∈ (⟨[4096, 0], 1, 2, 12288, initDefL3Conf 0 0 0, ⟨64, 6, 10, 1, 1, 0⟩⟩ : EvSet ℕ).lines,
      x / 4096 % 2 = 12288 / 4096 % 2) ∧
    1 ≤ (⟨[4096, 0], 1, 2, 12288, initDefL3Conf 0 0 0, ⟨64, 6, 10, 1, 1, 0⟩⟩ : EvSet ℕ).lines.length :=
  ⟨by decide, buildSingleL3Evset_ideal (r := fun x y : ℕ => x / 4096 % 2 = y / 4096 % 2)
    ⟨fun _ => rfl, Eq.symm, Eq.trans⟩ (fun _ _ S => (if 1 ≤ S.length then .evPos else .evNeg, ()))
    (fun _ => false) (fun _ _ batch => (batch.map fun _ => 0, ())) ⟨64, 6, 6, 1, 1, 0⟩
    ⟨64, 6, 10, 1, 1, 0⟩ (by decide) 0 0 0 0 ⟨4096, 3, rfl⟩ ⟨4096, 3, rfl⟩ (by decide)⟩

end IdealWhole

end EvCache
