import EvCache.Para.Dynamic

set_option autoImplicit false

/-!
# The pairs' `total_built` counts the sets stored in the result complex

Every worker of `src/src/evset_para.c` counts in its `total_built` the entries of the array
`l3_evsets` that `build_evsets_at` returns that are set and not empty, and stores the array in
`result_complex[n][i]`; the builders print the sum of the counters as "Total built". The count
is over `l3_evsets[0..l3_cnt)`, with the count `l3_cnt` the call writes, and the array has
exactly that many entries (`buildEvsetsAt_ok`). So the counter of a pair is the number of
non-empty sets in the cells it has built, and what the builders print is the number of
non-empty sets in the result complex: for `build_l3_evsets_para_gran` after the join, and for
`build_l3_evsets_para` in every state the pairs reach, however they interleave and time out,
since a pair counts a cell when it stores it. The second result holds of every queue of offsets
(`offsetPairs_total_built`), that of `build_l3_evsets_para_vtop` among them.

## Main definitions

* `EvCache.Para.cellBuilt` — the non-empty sets a cell of the result complex holds.

## Main results

* `EvCache.Para.granPairs_total_built` — the counters of the granular builder's pairs after
  the join, pair by pair and in total.
* `EvCache.Para.offsetPairs_total_built` — the counters of the pairs of a dynamic builder in
  every reachable state, and `EvCache.Para.evsetPairs_total_built` for `build_l3_evsets_para`.

## Design

For the granular builder the argument is the agreement of `EvCache.Lib.Interleave`: each pair's
counter is that of its worker run alone, and the cells of the pairs are those of `all_work`,
each once. For the dynamic builders it is the tally of `EvCache.Lib.WorkQueue`: the counters add
up to what the claimed offsets have added, each as its pass computes it alone from the counter
at its claim. In both, a loop of iterations over distinct cells adds to the counter it starts
from the sets it leaves in those cells (`foldl_granIteration_count`). The complexes start with
every result `NULL`, as `_calloc` leaves them; the granular builder overwrites every cell it
counts, so it needs no such assumption.

## References

* `src/src/evset_para.c`, lines 281-355, 357-556 and 565-572 (granular), 767-861 and 987-1002
  (dynamic), 700-765 and 1330-1343 (vTop); `src/src/evset.c`, lines 1990-2133.
-/

namespace EvCache.Para

open Interleave WorkQueue CArray

variable {σ : Type}

/-- The sets a cell of the result complex holds that a worker counts: the entries of its array
that are set and not empty; none for a `NULL` array. -/
def cellBuilt (cell : GranCell) : ℕ :=
  match cell.result with
  | none => 0
  | some arr => nBuilt (some arr) arr.length

lemma cellBuilt_of_result_eq_none {cell : GranCell} (h : cell.result = none) :
    cellBuilt cell = 0 := by
  simp [cellBuilt, h]

/-- The non-empty sets in the row of offset `c` of the result complex, over its
`n_unc_l2_sets` cells. -/
def rowBuilt (n_unc_l2_sets : ℕ) (store : ℕ × ℕ → GranCell) (c : ℕ) : ℕ :=
  ∑ j ∈ Finset.range n_unc_l2_sets, cellBuilt (store (c, j))

/-- A sum over the indices of a list is the sum over its entries. -/
lemma sum_range_length_getD {α : Type} (xs : List α) (f : α → ℕ) (d : α) :
    ∑ i ∈ Finset.range xs.length, f (xs.getD i d) = (xs.map f).sum := by
  have h : (List.range xs.length).map (fun i => f (xs.getD i d)) = xs.map f :=
    List.ext_getElem (by simp) fun i h₁ h₂ => by
      rw [List.getElem_map, List.getElem_map, List.getElem_range,
        List.getD_eq_getElem _ _ (by simpa using h₂)]
  rw [← h]
  rfl

section Worker

variable (detailed : σ → ℕ → List ℕ → EvTestRes × σ) (timedOut : σ → Bool) (l3 : CacheInfo)
  (l3_conf : EvBuildConf) (l2evsets : ℕ → ℕ → Option (EvSet ℕ))
  (populated : ℕ → ℕ → Option (List ℕ)) (evsets_per_l2 : ℕ)

/-- **One iteration counts the sets it stores.** The body of the loop never faults, and adds to
`total_built` the non-empty sets of the array it leaves in the cell. -/
lemma granBuildCell_ok (offset_idx l2_set_idx tb : ℕ) (st : σ) (cell : GranCell) :
    ∃ st', (granBuildCell detailed timedOut l3 l3_conf l2evsets populated evsets_per_l2
        offset_idx l2_set_idx (.ok (tb, st)) cell).1 =
      .ok (tb + cellBuilt (granBuildCell detailed timedOut l3 l3_conf l2evsets populated
        evsets_per_l2 offset_idx l2_set_idx (.ok (tb, st)) cell).2, st') := by
  obtain ⟨evsets, pool, st', hbuild, hlen⟩ := buildEvsetsAt_ok detailed timedOut l3 l3_conf l3
    ((l2evsets offset_idx l2_set_idx).map EvSet.target_cache) cell.cands
    (populated offset_idx l2_set_idx) [] evsets_per_l2 st
  refine ⟨st', ?_⟩
  simp only [granBuildCell, hbuild]
  cases evsets with
  | none => rfl
  | some arr => simp only [cellBuilt, hlen arr rfl]

/-- The loop of iterations over the cells `ks`. -/
lemma foldl_granIteration_frame (ks : List (ℕ × ℕ)) (l : GranLocal σ)
    (store : ℕ × ℕ → GranCell) {k : ℕ × ℕ} (hk : k ∉ ks) :
    (ks.foldl (fun p k => granIteration detailed timedOut l3 l3_conf l2evsets populated
      evsets_per_l2 k p.1 p.2) (l, store)).2 k = store k := by
  rw [← runAlone_map]
  refine runAlone_frame (F := {k | k ∈ ks}) (fun f hf => ?_) l store hk
  obtain ⟨k', hk', rfl⟩ := List.mem_map.mp hf
  exact (confined_cellStep k' _).mono (Set.singleton_subset_iff.mpr hk')

/-- **A loop over distinct cells counts the sets it stores.** From the counter `tb`, the loop
of iterations over the cells `ks` ends without a fault, with `tb` plus the non-empty sets it
leaves in those cells.

**Proof sketch.** Induction on `ks`: the first iteration counts its cell
(`granBuildCell_ok`), and the rest of the loop does not visit that cell again. -/
lemma foldl_granIteration_count (ks : List (ℕ × ℕ)) (hks : ks.Nodup) (tb : ℕ) (st : σ)
    (store : ℕ × ℕ → GranCell) :
    ∃ st', (ks.foldl (fun p k => granIteration detailed timedOut l3 l3_conf l2evsets populated
        evsets_per_l2 k p.1 p.2) (.ok (tb, st), store)).1 =
      .ok (tb + (ks.map fun k => cellBuilt ((ks.foldl (fun p k => granIteration detailed
        timedOut l3 l3_conf l2evsets populated evsets_per_l2 k p.1 p.2)
          (.ok (tb, st), store)).2 k)).sum, st') := by
  induction ks generalizing tb st store with
  | nil => exact ⟨st, rfl⟩
  | cons k ks ih =>
    obtain ⟨hk, hks⟩ := List.nodup_cons.mp hks
    set cell := granBuildCell detailed timedOut l3 l3_conf l2evsets populated evsets_per_l2 k.1
      k.2 (.ok (tb, st)) (store k) with hcell
    obtain ⟨st₁, h₁⟩ := granBuildCell_ok detailed timedOut l3 l3_conf l2evsets populated
      evsets_per_l2 k.1 k.2 tb st (store k)
    rw [← hcell] at h₁
    have hstep : granIteration detailed timedOut l3 l3_conf l2evsets populated evsets_per_l2 k
        (.ok (tb, st)) store = (.ok (tb + cellBuilt cell.2, st₁), Function.update store k cell.2) := by
      simp only [granIteration, Interleave.cellStep]
      rw [← hcell, h₁]
    obtain ⟨st', h'⟩ := ih hks (tb + cellBuilt cell.2) st₁ (Function.update store k cell.2)
    refine ⟨st', ?_⟩
    rw [List.foldl_cons, hstep, h', List.map_cons, List.sum_cons,
      foldl_granIteration_frame detailed timedOut l3 l3_conf l2evsets populated evsets_per_l2 ks
        _ _ hk, Function.update_self, Nat.add_assoc]

end Worker

/-! ## The granular builder -/

section Gran

variable (detailed : σ → ℕ → List ℕ → EvTestRes × σ) (timedOut : σ → Bool) (l3 : CacheInfo)
  (l3_conf : EvBuildConf) (l2evsets : ℕ → ℕ → Option (EvSet ℕ))
  (populated : ℕ → ℕ → Option (List ℕ)) (evsets_per_l2 : ℕ)
  {n_pairs n_offsets n_l2_sets : ℕ} {valid_vcpu_pairs : Option ℕ} {cells : List (List (ℕ × ℕ))}
  (stOf : ℕ → σ) (store : ℕ × ℕ → GranCell)

/-- After every interleaving that gives each pair as many turns as it has cells, the counter of
pair `i` is the number of non-empty sets in its cells. -/
lemma granPairs_loc_of_done (hT : n_offsets * n_l2_sets < 2 ^ 32)
    (hcells : granThreadCells n_pairs valid_vcpu_pairs n_offsets n_l2_sets = some cells)
    {sched : List ℕ} (hturns : ∀ i, (cells.getD i []).length ≤ sched.count i) {i : ℕ}
    (hi : i < cells.length) :
    ∃ st, ((granPairs detailed timedOut l3 l3_conf l2evsets populated evsets_per_l2 cells stOf
        store).run sched).loc i =
      .ok (((cells.getD i []).map fun k => cellBuilt (((granPairs detailed timedOut l3 l3_conf
        l2evsets populated evsets_per_l2 cells stOf store).run sched).store k)).sum, st) := by
  obtain ⟨hloc, hcell⟩ := granPairs_run_of_done detailed timedOut l3 l3_conf l2evsets populated
    evsets_per_l2 stOf store hT hcells hturns i
  have hnodup : (cells.getD i []).Nodup := by
    rw [List.getD_eq_getElem _ _ hi]
    exact (granThreadCells_disjoint hT valid_vcpu_pairs hcells).1 _ (List.getElem_mem hi)
  obtain ⟨st, hcount⟩ := foldl_granIteration_count detailed timedOut l3 l3_conf l2evsets populated
    evsets_per_l2 (cells.getD i []) hnodup 0 (stOf i) store
  refine ⟨st, ?_⟩
  rw [hloc, List.map_congr_left fun k hk => congrArg cellBuilt (hcell k hk)]
  rw [Nat.zero_add] at hcount
  exact hcount

/-- **The total the granular builder prints is the number of sets in the complex.** After every
interleaving that gives each pair as many turns as it has cells, the join of
`build_l3_evsets_para_gran`, for every number of pairs and every result of `--vtop`, each pair
has its counter `total_built`, the number of non-empty sets in the cells it built, and the
counters add up to the number of non-empty sets in the cells
`[0, n_offsets) × [0, n_l2_sets)` of the result complex, whatever the measurements answer.

**Proof sketch.** Each pair's counter counts its own cells (`granPairs_loc_of_done`), and the
cells of the pairs are those of `all_work`, each once (`flatten_granThreadCells`). -/
theorem granPairs_total_built (hT : n_offsets * n_l2_sets < 2 ^ 32)
    (hcells : granThreadCells n_pairs valid_vcpu_pairs n_offsets n_l2_sets = some cells)
    {sched : List ℕ} (hturns : ∀ i, (cells.getD i []).length ≤ sched.count i) :
    ∃ tb : ℕ → ℕ, (∀ i < cells.length, (∃ st, ((granPairs detailed timedOut l3 l3_conf l2evsets
        populated evsets_per_l2 cells stOf store).run sched).loc i = .ok (tb i, st)) ∧
      tb i = ((cells.getD i []).map fun k => cellBuilt (((granPairs detailed timedOut l3 l3_conf
        l2evsets populated evsets_per_l2 cells stOf store).run sched).store k)).sum) ∧
      ∑ i ∈ Finset.range cells.length, tb i =
        ∑ l ∈ Finset.range n_l2_sets, ∑ o ∈ Finset.range n_offsets,
          cellBuilt (((granPairs detailed timedOut l3 l3_conf l2evsets populated evsets_per_l2
            cells stOf store).run sched).store (o, l)) := by
  set g := fun k => cellBuilt (((granPairs detailed timedOut l3 l3_conf l2evsets populated
    evsets_per_l2 cells stOf store).run sched).store k) with hg
  refine ⟨fun i => ((cells.getD i []).map g).sum, fun i hi => ⟨granPairs_loc_of_done detailed
    timedOut l3 l3_conf l2evsets populated evsets_per_l2 stOf store hT hcells hturns hi, rfl⟩, ?_⟩
  calc ∑ i ∈ Finset.range cells.length, ((cells.getD i []).map g).sum
      = (cells.flatten.map g).sum := by
        rw [sum_range_length_getD cells (fun c => (c.map g).sum) [], List.map_flatten,
          List.sum_flatten, List.map_map]
        rfl
    _ = (((allWork n_offsets n_l2_sets).map fun w => (w.offset_idx, w.l2_set_idx)).map g).sum := by
        rw [flatten_granThreadCells hT valid_vcpu_pairs hcells]
    _ = ∑ l ∈ Finset.range n_l2_sets, ∑ o ∈ Finset.range n_offsets, g (o, l) := by
        rw [allWork, List.map_flatMap, List.map_flatMap, List.flatMap_def, List.sum_flatten,
          List.map_map]
        simp only [Function.comp_def, List.map_map]
        rfl

/-- The two pairs on two offsets of one L2 set: the counters add up to the sets of both cells. -/
theorem granPairs_total_built_two :
    ∃ tb : ℕ → ℕ, (∀ i < 2, (∃ st, ((granPairs (fun st _ _ => (EvTestRes.evPos, st))
        (fun _ : Unit => false) ⟨64, 6, 11, 16, 1, 0⟩ (initDefL3Conf 0 100 0) (fun _ _ => none)
        (fun _ _ => none) 1 [[(0, 0)], [(1, 0)]] (fun _ => ())
        (fun _ => ⟨some [1, 2, 3], none⟩)).run [1, 0]).loc i = .ok (tb i, st)) ∧
      tb i = (([[(0, 0)], [(1, 0)]].getD i []).map fun k => cellBuilt (((granPairs
        (fun st _ _ => (EvTestRes.evPos, st)) (fun _ : Unit => false) ⟨64, 6, 11, 16, 1, 0⟩
        (initDefL3Conf 0 100 0) (fun _ _ => none) (fun _ _ => none) 1 [[(0, 0)], [(1, 0)]]
        (fun _ => ()) (fun _ => ⟨some [1, 2, 3], none⟩)).run [1, 0]).store k)).sum) ∧
      ∑ i ∈ Finset.range 2, tb i =
        ∑ l ∈ Finset.range 1, ∑ o ∈ Finset.range 2,
          cellBuilt (((granPairs (fun st _ _ => (EvTestRes.evPos, st)) (fun _ : Unit => false)
            ⟨64, 6, 11, 16, 1, 0⟩ (initDefL3Conf 0 100 0) (fun _ _ => none) (fun _ _ => none) 1
            [[(0, 0)], [(1, 0)]] (fun _ => ()) (fun _ => ⟨some [1, 2, 3], none⟩)).run
              [1, 0]).store (o, l)) :=
  granPairs_total_built _ _ _ _ _ _ _ _ _ (show 2 * 1 < 2 ^ 32 by norm_num)
    (show granThreadCells 2 none 2 1 = some [[(0, 0)], [(1, 0)]] by decide)
    (show ∀ i, ([[(0, 0)], [(1, 0)]].getD i []).length ≤ [1, 0].count i from
      fun i => by rcases i with _ | _ | i <;> simp)

end Gran

/-! ## The dynamic builders -/

/-- A pair's counter as the tally of its local state; a fault loses it. -/
def counterOf : GranLocal σ → ℤ
  | .ok (tb, _) => tb
  | .error _ => 0

section Dynamic

variable (detailed : σ → ℕ → List ℕ → EvTestRes × σ) (timedOut : σ → Bool) (l3 : CacheInfo)
  (l3_conf : EvBuildConf) (l2evsets : ℕ → ℕ → Option (EvSet ℕ))
  (populated : ℕ → ℕ → Option (List ℕ)) (n_unc_l2_sets : ℕ)

/-- The steps of a pass over an offset of a page never fault. -/
lemma offsetSteps_ok {c : ℕ} (hc : c < numOffsets) :
    ∀ f ∈ offsetSteps detailed timedOut l3 l3_conf l2evsets populated offsetIdxs n_unc_l2_sets c,
      ∀ (l : GranLocal σ) (store : ℕ × ℕ → GranCell), (∃ tb st, l = .ok (tb, st)) →
        ∃ tb st, (f l store).1 = .ok (tb, st) := by
  rintro f hf l store ⟨tb, st, rfl⟩
  simp only [offsetSteps, get_offsetIdxs_eq_ok.mpr ⟨hc, rfl⟩] at hf
  obtain ⟨j, -, rfl⟩ := List.mem_map.mp hf
  obtain ⟨st', h⟩ := granBuildCell_ok detailed timedOut l3 l3_conf l2evsets populated 0 c j tb st
    (store (c, j))
  exact ⟨_, st', h⟩

/-- The first `k` steps of a pass over an offset `c` of a page are the iterations over the cells
`(c, j)`, `j < k`. -/
lemma take_offsetSteps_offsetIdxs {c k : ℕ} (hc : c < numOffsets) (hk : k ≤ n_unc_l2_sets) :
    (offsetSteps detailed timedOut l3 l3_conf l2evsets populated offsetIdxs n_unc_l2_sets
        c).take k =
      ((List.range k).map fun j => (c, j)).map
        (granIteration detailed timedOut l3 l3_conf l2evsets populated 0) := by
  simp only [offsetSteps, get_offsetIdxs_eq_ok.mpr ⟨hc, rfl⟩]
  rw [← List.map_take, List.take_range, Nat.min_eq_left hk, List.map_map]
  rfl

/-- **A prefix of a pass counts the sets it stores.** The first `k` iterations of the pass over
an offset `c` of a page, run alone from the counter `tb`, end without a fault, with `tb` plus the
non-empty sets they leave in the cells `(c, j)`, `j < k`, and leave the cells `(c, j)`, `k ≤ j`,
as they were. -/
lemma runAlone_take_offsetSteps {c k : ℕ} (hc : c < numOffsets) (hk : k ≤ n_unc_l2_sets)
    (tb : ℕ) (st : σ) (store : ℕ × ℕ → GranCell) :
    (∃ st', (runAlone ((offsetSteps detailed timedOut l3 l3_conf l2evsets populated offsetIdxs
        n_unc_l2_sets c).take k) (.ok (tb, st)) store).1 =
      .ok (tb + ∑ j ∈ Finset.range k, cellBuilt ((runAlone ((offsetSteps detailed timedOut l3
        l3_conf l2evsets populated offsetIdxs n_unc_l2_sets c).take k) (.ok (tb, st))
          store).2 (c, j)), st')) ∧
    ∀ j, k ≤ j → (runAlone ((offsetSteps detailed timedOut l3 l3_conf l2evsets populated
        offsetIdxs n_unc_l2_sets c).take k) (.ok (tb, st)) store).2 (c, j) = store (c, j) := by
  rw [take_offsetSteps_offsetIdxs detailed timedOut l3 l3_conf l2evsets populated n_unc_l2_sets hc
    hk, runAlone_map]
  have hnodup : ((List.range k).map fun j => (c, j)).Nodup :=
    List.nodup_range.map fun _ _ h => (Prod.mk.inj h).2
  obtain ⟨st', hcount⟩ := foldl_granIteration_count detailed timedOut l3 l3_conf l2evsets
    populated 0 _ hnodup tb st store
  refine ⟨⟨st', ?_⟩, fun j hj => foldl_granIteration_frame detailed timedOut l3 l3_conf l2evsets
    populated 0 _ _ _ fun hmem => ?_⟩
  · rw [hcount, List.map_map]
    rfl
  · obtain ⟨j', hj', hjj⟩ := List.mem_map.mp hmem
    have := List.mem_range.mp hj'
    have := (Prod.mk.inj hjj).2
    omega

section Queue

variable {N n_pairs : ℕ} {store : ℕ × ℕ → GranCell}
  {s : Sys (Fin n_pairs) (GranLocal σ) (ℕ × ℕ) GranCell}
  (hN : N ≤ numOffsets) (hnull : ∀ x, (store x).result = none)
  (hinv : Inv N (offsetSteps detailed timedOut l3 l3_conf l2evsets populated offsetIdxs
    n_unc_l2_sets) (offsetCells offsetIdxs n_unc_l2_sets) store s)
include hN hnull hinv

/-- A row that no pair has claimed below `N` is empty: past `N` no pass touches it, and below
`N` it is as `_calloc` left it. -/
lemma rowBuilt_eq_zero {c : ℕ} (hc : min s.next N ≤ c) :
    rowBuilt n_unc_l2_sets s.store c = 0 := by
  refine Finset.sum_eq_zero fun j hj => ?_
  have hst : s.store (c, j) = store (c, j) := by
    by_cases hcN : N ≤ c
    · apply hinv.outside (c, j)
      intro d hd hx
      obtain ⟨-, hdc, -⟩ := (mem_offsetCells_offsetIdxs n_unc_l2_sets d _).mp hx
      exact absurd hdc (by dsimp only; omega)
    · apply hinv.fresh c (by omega) (by omega) (c, j)
      exact (mem_offsetCells_offsetIdxs n_unc_l2_sets c _).mpr
        ⟨by omega, rfl, Finset.mem_range.mp hj⟩
  rw [hst]
  exact cellBuilt_of_result_eq_none (hnull _)

/-- **A claimed offset has added the sets of its row.** What the prefix of the pass over a claimed
offset `c` adds to the counter it starts from is the number of non-empty sets in the row of `c`.

**Proof sketch.** Below `N` the prefix counts the cells it stored (`runAlone_take_offsetSteps`),
which the row holds, and the cells past it are still `NULL`; past `N` the pass has not started
and the row is empty. -/
lemma gain_eq_rowBuilt {c : ℕ} (hc : c < s.next) {i : Fin n_pairs} {tb₀ : ℕ} {st₀ : σ}
    (hcl : s.claims[c]? = some (i, .ok (tb₀, st₀))) :
    counterOf (runAlone ((offsetSteps detailed timedOut l3 l3_conf l2evsets populated offsetIdxs
        n_unc_l2_sets c).take (s.prog c)) (.ok (tb₀, st₀)) store).1 - counterOf (.ok (tb₀, st₀)) =
      rowBuilt n_unc_l2_sets s.store c := by
  by_cases hcN : c < N
  swap
  · rw [hinv.unstarted c (.inr (not_lt.mp hcN)), List.take_zero, runAlone_nil, sub_self,
      rowBuilt_eq_zero detailed timedOut l3 l3_conf l2evsets populated n_unc_l2_sets hN hnull hinv
        (by omega), Nat.cast_zero]
  obtain ⟨i', l₀', hcl', hk, hst⟩ := hinv.claimed c hcN hc
  obtain ⟨-, rfl⟩ := Prod.mk.inj (Option.some.inj (hcl'.symm.trans hcl))
  have hcn : c < numOffsets := lt_of_lt_of_le hcN hN
  rw [length_offsetSteps_offsetIdxs detailed timedOut l3 l3_conf l2evsets populated
    n_unc_l2_sets hcn] at hk
  obtain ⟨⟨st', hcount⟩, hframe⟩ := runAlone_take_offsetSteps detailed timedOut l3 l3_conf
    l2evsets populated n_unc_l2_sets hcn hk tb₀ st₀ store
  have hsum : ∑ j ∈ Finset.range (s.prog c), cellBuilt ((runAlone ((offsetSteps detailed timedOut
      l3 l3_conf l2evsets populated offsetIdxs n_unc_l2_sets c).take (s.prog c)) (.ok (tb₀, st₀))
        store).2 (c, j)) = rowBuilt n_unc_l2_sets s.store c := by
    refine (Finset.sum_subset (Finset.range_subset_range.mpr hk) fun j _ hjk => ?_).trans
      (Finset.sum_congr rfl fun j hj => ?_)
    · rw [hframe j (by simpa using hjk)]
      exact cellBuilt_of_result_eq_none (hnull _)
    · rw [hst (c, j) ((mem_offsetCells_offsetIdxs n_unc_l2_sets c _).mpr
        ⟨hcn, rfl, Finset.mem_range.mp hj⟩)]
  rw [hcount, counterOf, counterOf, ← hsum]
  push_cast
  ring

end Queue

variable {n_pairs : ℕ} (stOf : Fin n_pairs → σ) (store : ℕ × ℕ → GranCell)

/-- **The counters of pairs over a queue of offsets count the sets in the complex.** In every
state that pairs claiming indices below `N ≤ NUM_OFFSETS` from one counter reach, however they
interleave and stop early, on complexes whose results start `NULL`, no pair has faulted, and the
counters add up to the number of non-empty sets in the rows `c < N` of the result complex.

**Proof sketch.** No step faults (`offsetSteps_ok`, `WorkQueue.run_good`), and the counters add
up to what the claimed offsets have added (`WorkQueue.run_tally`), each the sets of its row
(`gain_eq_rowBuilt`); the rows of the offsets not claimed below `N` are empty
(`rowBuilt_eq_zero`). -/
lemma offsetPairs_total_built {N : ℕ} (hN : N ≤ numOffsets)
    (hnull : ∀ x, (store x).result = none) (may_stop : Bool) (evs : List (Event (Fin n_pairs))) :
    ∃ tb : Fin n_pairs → ℕ, (∀ i, ∃ st, (run N (offsetSteps detailed timedOut l3 l3_conf l2evsets
        populated offsetIdxs n_unc_l2_sets) may_stop (init (fun i => .ok (0, stOf i)) store)
          evs).loc i = .ok (tb i, st)) ∧
      ∑ i, tb i = ∑ c ∈ Finset.range N, ∑ j ∈ Finset.range n_unc_l2_sets,
        cellBuilt ((run N (offsetSteps detailed timedOut l3 l3_conf l2evsets populated offsetIdxs
          n_unc_l2_sets) may_stop (init (fun i => .ok (0, stOf i)) store) evs).store (c, j)) := by
  set work := offsetSteps detailed timedOut l3 l3_conf l2evsets populated offsetIdxs
    n_unc_l2_sets with hwork
  set s := run N work may_stop (init (fun i => .ok (0, stOf i)) store) evs with hs
  have hconf : ∀ c < N, ∀ f ∈ work c, Confined (offsetCells offsetIdxs n_unc_l2_sets c) f :=
    fun c _ => offsetSteps_confined detailed timedOut l3 l3_conf l2evsets populated offsetIdxs
      n_unc_l2_sets c
  have hdisj := offsetCells_pairwise_disjoint n_unc_l2_sets N
  have hinv : Inv N work (offsetCells offsetIdxs n_unc_l2_sets) store s :=
    run_inv hconf hdisj _ may_stop evs
  obtain ⟨hgood, hgood_claims⟩ : (∀ i, ∃ tb st, s.loc i = .ok (tb, st)) ∧
      ∀ (c : ℕ) (p : Fin n_pairs × GranLocal σ), s.claims[c]? = some p →
        ∃ tb st, p.2 = .ok (tb, st) :=
    run_good (fun l : GranLocal σ => ∃ tb st, l = .ok (tb, st))
      (fun c hc => offsetSteps_ok detailed timedOut l3 l3_conf l2evsets populated n_unc_l2_sets
        (lt_of_lt_of_le hc hN)) hconf hdisj (fun i => .ok (0, stOf i)) (fun i => ⟨0, stOf i, rfl⟩)
        may_stop evs
  have htally : ∑ i, counterOf (s.loc i) =
      ∑ i : Fin n_pairs, counterOf (.ok (0, stOf i) : GranLocal σ) + gains work store counterOf s :=
    run_tally counterOf hconf hdisj (fun i => .ok (0, stOf i)) may_stop evs
  have hgains := gains_eq_sum counterOf hinv (fun c => (rowBuilt n_unc_l2_sets s.store c : ℤ))
    fun c hc i l₀ hcl => by
      obtain ⟨tb₀, st₀, rfl⟩ := hgood_claims c (i, l₀) hcl
      exact gain_eq_rowBuilt detailed timedOut l3 l3_conf l2evsets populated n_unc_l2_sets hN hnull
        hinv hc hcl
  choose tb st hloc using hgood
  refine ⟨tb, fun i => ⟨st i, hloc i⟩, ?_⟩
  have hcounters : ∑ i, (tb i : ℤ) =
      ∑ c ∈ Finset.range s.next, (rowBuilt n_unc_l2_sets s.store c : ℤ) := by
    have h₀ : ∑ i : Fin n_pairs, counterOf (.ok (0, stOf i) : GranLocal σ) = 0 := by
      simp [counterOf]
    have h₁ : ∑ i, counterOf (s.loc i) = ∑ i, (tb i : ℤ) := by
      simp only [hloc, counterOf]
    rw [← h₁, ← hgains]
    simpa only [h₀, zero_add] using htally
  -- both ranges hold the offsets below `min next N`, and the rows past them are empty
  have hrange : ∀ a, min s.next N ≤ a → ∑ c ∈ Finset.range a, rowBuilt n_unc_l2_sets s.store c =
      ∑ c ∈ Finset.range (min s.next N), rowBuilt n_unc_l2_sets s.store c := fun a ha =>
    (Finset.sum_subset (Finset.range_subset_range.mpr ha) fun c _ hc =>
      rowBuilt_eq_zero detailed timedOut l3 l3_conf l2evsets populated n_unc_l2_sets hN hnull hinv
        (not_lt.mp fun h => hc (Finset.mem_range.mpr h))).symm
  calc ∑ i, tb i = ∑ c ∈ Finset.range s.next, rowBuilt n_unc_l2_sets s.store c := by
        exact_mod_cast hcounters
    _ = ∑ c ∈ Finset.range (min s.next N), rowBuilt n_unc_l2_sets s.store c :=
        hrange _ (min_le_left _ _)
    _ = ∑ c ∈ Finset.range N, rowBuilt n_unc_l2_sets s.store c := (hrange _ (min_le_right _ _)).symm

variable (evs : List (Event (Fin n_pairs)))

/-- **The total `build_l3_evsets_para` prints is the number of sets in the complex.** In every
state the pairs of `build_l3_evsets_para` reach, however they interleave and time out, and in
particular at the join, for `num_sets ≤ NUM_OFFSETS` as `main` clamps it and on the result
complex `_calloc` leaves `NULL`, no pair has faulted, and the pairs' counters `total_built` add
up to the number of non-empty sets in the rows `c < num_sets` of the complex. -/
theorem evsetPairs_total_built (num_sets : ℕ) (hN : num_sets ≤ numOffsets)
    (hnull : ∀ x, (store x).result = none) :
    ∃ tb : Fin n_pairs → ℕ, (∀ i, ∃ st, (evsetPairsRun detailed timedOut l3 l3_conf l2evsets
        populated n_unc_l2_sets n_pairs num_sets stOf store evs).loc i = .ok (tb i, st)) ∧
      ∑ i, tb i = ∑ c ∈ Finset.range num_sets, ∑ j ∈ Finset.range n_unc_l2_sets,
        cellBuilt ((evsetPairsRun detailed timedOut l3 l3_conf l2evsets populated n_unc_l2_sets
          n_pairs num_sets stOf store evs).store (c, j)) :=
  offsetPairs_total_built detailed timedOut l3 l3_conf l2evsets populated n_unc_l2_sets stOf store
    hN hnull _ evs

/-- Two pairs on two offsets, the first one back for its second offset's claim. -/
theorem evsetPairs_total_built_two :
    ∃ tb : Fin 2 → ℕ, (∀ i, ∃ st, (evsetPairsRun (fun st _ _ => (EvTestRes.evPos, st))
        (fun _ : Unit => false) ⟨64, 6, 11, 16, 1, 0⟩ (initDefL3Conf 0 100 0) (fun _ _ => none)
        (fun _ _ => none) 1 2 2 (fun _ => ()) (fun _ => ⟨some [1, 2, 3], none⟩)
        [.step 0, .step 1, .step 0, .step 1]).loc i = .ok (tb i, st)) ∧
      ∑ i, tb i = ∑ c ∈ Finset.range 2, ∑ j ∈ Finset.range 1,
        cellBuilt ((evsetPairsRun (fun st _ _ => (EvTestRes.evPos, st)) (fun _ : Unit => false)
          ⟨64, 6, 11, 16, 1, 0⟩ (initDefL3Conf 0 100 0) (fun _ _ => none) (fun _ _ => none) 1 2 2
          (fun _ => ()) (fun _ => ⟨some [1, 2, 3], none⟩)
          [.step 0, .step 1, .step 0, .step 1]).store (c, j)) :=
  evsetPairs_total_built (fun st _ _ => (EvTestRes.evPos, st)) (fun _ : Unit => false)
    ⟨64, 6, 11, 16, 1, 0⟩ (initDefL3Conf 0 100 0) (fun _ _ => none) (fun _ _ => none) 1
    (fun _ => ()) (fun _ => ⟨some [1, 2, 3], none⟩) [.step 0, .step 1, .step 0, .step 1] 2
    (by decide) fun _ => rfl

end Dynamic

end EvCache.Para
