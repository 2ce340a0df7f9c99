import EvCache.Evset.Filter
import EvCache.Evset.Shift
import Mathlib

set_option autoImplicit false

/-!
# The candidate complex, built in sequence and in parallel

The LLC eviction sets are built from the candidate complex `cands_complex[n][i]`: for every
line offset `n` of a page and every colour `i`, the lines of the buffer at offset `n` that lie
in the L2 set `l2evsets[n][i]`. `build_evcands_all` filters the buffer at offset `0` by every
`l2evsets[0][i]` and shifts the results to the other offsets. `build_evcands_all_para` lets
thread workers filter colour `i` at offset `64 i` by the diagonal set `l2evsets[i][i]`, and
shifts every diagonal cell to the other offsets.

Under an ideal L2 filter and a translation that keeps the page offset, the two agree: a line
at offset `64 i` lies in the L2 set of the shifted target exactly when the line of its page at
offset `0` lies in the set of the original target (`cacheGetSib_shift_iff`), so the diagonal
cell is the shifted cell of offset `0` (`idealCands_shift`), and shifting a shifted cell is
shifting the original one.

## Main definitions

* `EvCache.EvBuffer`, `EvCache.bufLines` — the buffer and its lines at an offset.
* `EvCache.evcandsPopulate` — `evcands_populate`.
* `EvCache.buildEvcandsAll`, `EvCache.buildEvcandsAllPara` — the two builders.
* `EvCache.IdealFilter` — the ideal L2 filter for a filter set.
* `EvCache.idealCands` — what `evcands_populate` leaves under the ideal filter.

## Main results

* `EvCache.evcandsPopulate_ideal` — under the ideal filter, `evcands_populate` keeps the lines
  of the buffer in the L2 set of the filter set's target, in order.
* `EvCache.buildEvcandsAll_ideal`, `EvCache.buildEvcandsAllPara_ideal` — the two complexes.
* `EvCache.buildEvcandsAllPara_eq` — the parallel complex is the sequential one.

## Model

The hardware is seen through trial measurements as in `EvCache.Evset.Filter`. The worker of
colour `idx` measures with `trialOf idx` from the state `stOf idx`: every interleaving of the
threads is such a pair, so the results hold for every schedule. The workers write disjoint
cells and are run one after another. Thread creation and the allocations succeed; pinning,
timing and printing are left out, and so is the write of each page's index into the buffer.
`n_unc_l2_sets` is `g_n_uncertain_l2_sets`, which `init_cache_info` sets to
`cache_uncertainty(&l2_info)`. The source divides once, before its loop over the workers:
`base_load = n_unc_l2_sets / n_threads` and `remainder = n_unc_l2_sets % n_threads`
(`evset.c:391-392`), which traps when `n_threads = 0`. `EvCache.workerStep` divides inside each
step of the loop instead, so with no workers the model runs no step and divides nowhere. The
two agree whenever `n_threads > 0`, and `n_threads = 0` would need `g_n_uncertain_l2_sets = 0`,
which `cache_uncertainty` never gives for the L2, whose `n_slices` `init_cache_info` sets to `1`
(`cache_info.c:78`).

## References

* `src/src/evset.c`, lines 144-217, 219-246, 248-309 and 321-456; `src/src/cache_info.c`,
  lines 56-77.
-/

namespace EvCache

open CArray

variable {σ : Type}

/-! ## Model -/

/-- `CL_SIZE` of `common.h`. -/
def clSize : ℕ := 64

/-- `NUM_OFFSETS` of `common.h`: the line offsets of a page. -/
def numOffsets : ℕ := pageSize / clSize

/-- The part of `EvBuffer` (`evset.h`) the modelled functions read: the start of the mapping,
which `evbuffer_new` asserts page-aligned, and its number of pages. -/
structure EvBuffer where
  buf : ℕ
  n_pages : ℕ
  aligned : buf % pageSize = 0

/-- The candidate lines `buf + n * PAGE_SIZE + offset` of the buffer (`evset.c:157-160`). -/
def bufLines (evb : EvBuffer) (offset : ℕ) : List ℕ :=
  (List.range evb.n_pages).map fun n => evb.buf + n * pageSize + offset

/-- `evcands_populate(offset, cands, config, thread_id, filter_offset)` (`evset.c:144`), with
`config->filter_ev` and the global `def_l2_build_conf`: the candidates, or `none` where the
call returns `true` because no line passed the filter. Without a filter set, or when the page
offset already fixes the set, every line is a candidate. -/
def evcandsPopulate (trial : σ → List ℕ → List ℕ → List ℕ × σ) (l2_conf : EvBuildConf)
    (evb : EvBuffer) (offset : ℕ) (filter_ev : Option (EvSet ℕ)) (st : σ) :
    Except Fault (Option EvCands × σ) :=
  let addrs := bufLines evb offset
  match filter_ev with
  | none => pure (some ⟨addrs, evb.n_pages⟩, st)
  | some ev =>
    if cacheUncertainty ev.target_cache = 1 then pure (some ⟨addrs, evb.n_pages⟩, st)
    else do
      let r ← evcandsFilterBatch trial addrs evb.n_pages 0 (some ev) l2_conf st
      -- `n_cands_filtered <= 0` is an error; otherwise the array is cut to the filtered lines
      if r.2.1 = 0 then pure (none, r.2.2)
      else pure (some ⟨r.1.take r.2.1, r.2.1⟩, r.2.2)

/-- A cell of the first row of `build_evcands_all` (`evset.c:271-284`): filtered at offset
`0 * CL_SIZE` by `l2evsets[0][i]`. A failure returns `NULL` at once, so the rest of the row is
not built. -/
def rowStep (trial : σ → List ℕ → List ℕ → List ℕ × σ) (l2_conf : EvBuildConf) (evb : EvBuffer)
    (l2evsets : ℕ → ℕ → EvSet ℕ) (acc : Option (List EvCands) × σ) (i : ℕ) :
    Except Fault (Option (List EvCands) × σ) :=
  match acc.1 with
  | none => pure acc
  | some row => do
    let r ← evcandsPopulate trial l2_conf evb 0 (some (l2evsets 0 i)) acc.2
    pure (r.1.map (row ++ [·]), r.2)

/-- `build_evcands_all(conf, l2evsets)` (`evset.c:248`): the complex `cands_complex[n][i]`,
`none` for `NULL`. The other rows shift the cells of the first one. -/
def buildEvcandsAll (trial : σ → List ℕ → List ℕ → List ℕ × σ) (l2_conf : EvBuildConf)
    (evb : EvBuffer) (n_unc_l2_sets : ℕ) (l2evsets : ℕ → ℕ → EvSet ℕ) (st : σ) :
    Except Fault (Option (List (List (Option EvCands))) × σ) := do
  let row ← (List.range n_unc_l2_sets).foldlM (rowStep trial l2_conf evb l2evsets) (some [], st)
  pure (row.1.map (fun row0 => (List.range numOffsets).map fun n =>
      row0.map fun c => some (if n = 0 then c else evcandsShift c (n * clSize))), row.2)

/-- `n_system_cores()` (`utils.c:522`) from `get_nprocs()`. -/
def nSystemCores (nprocs : ℤ) : ℕ := if nprocs ≤ 0 then 2 else nprocs.toNat

/-- The number of workers of `build_evcands_all_para` (`evset.c:383-385`): `-t`, or the
number of cores, at most one per colour. -/
def candThreads (num_threads : ℕ) (nprocs : ℤ) (n_unc_l2_sets : ℕ) : ℕ :=
  min (if num_threads ≠ 0 then num_threads else nSystemCores nprocs) n_unc_l2_sets

/-- The range of worker `t` (`evset.c:395-405`): `cnt` colours from `curr_idx`, the first
`remainder` workers taking one more. -/
def workerStep (n_threads n_unc_l2_sets : ℕ) (acc : List (ℕ × ℕ) × ℕ) (t : ℕ) :
    List (ℕ × ℕ) × ℕ :=
  let cnt := n_unc_l2_sets / n_threads + if t < n_unc_l2_sets % n_threads then 1 else 0
  (acc.1 ++ [(acc.2, acc.2 + cnt)], acc.2 + cnt)

/-- The ranges `[start_idx, end_idx)` of the workers. -/
def workerRanges (n_threads n_unc_l2_sets : ℕ) : List (ℕ × ℕ) :=
  ((List.range n_threads).foldl (workerStep n_threads n_unc_l2_sets) ([], 0)).1

/-- `build_single_cand(idx, ...)` (`evset.c:330`): the candidates of colour `idx` at offset
`idx * CL_SIZE`, filtered by the diagonal set `l2evsets[idx][idx]`. -/
def buildSingleCand (trial : σ → List ℕ → List ℕ → List ℕ × σ) (l2_conf : EvBuildConf)
    (evb : EvBuffer) (l2evsets : ℕ → ℕ → EvSet ℕ) (idx : ℕ) (st : σ) :
    Except Fault (Option EvCands × σ) :=
  evcandsPopulate trial l2_conf evb (idx * clSize) (some (l2evsets idx idx)) st

/-- One colour of a worker: `cands_complex[idx][idx]` is written when the build succeeds. -/
def cellStep (trialOf : ℕ → σ → List ℕ → List ℕ → List ℕ × σ) (stOf : ℕ → σ)
    (l2_conf : EvBuildConf) (evb : EvBuffer) (l2evsets : ℕ → ℕ → EvSet ℕ)
    (diag : List (Option EvCands)) (idx : ℕ) : Except Fault (List (Option EvCands)) := do
  let r ← buildSingleCand (trialOf idx) l2_conf evb l2evsets idx (stOf idx)
  pure (match r.1 with
    | some cand => diag.set idx (some cand)
    | none => diag)

/-- `cand_para_worker` (`evset.c:352`) on its range. -/
def candWorker (trialOf : ℕ → σ → List ℕ → List ℕ → List ℕ × σ) (stOf : ℕ → σ)
    (l2_conf : EvBuildConf) (evb : EvBuffer) (l2evsets : ℕ → ℕ → EvSet ℕ)
    (diag : List (Option EvCands)) (range : ℕ × ℕ) : Except Fault (List (Option EvCands)) :=
  (List.range' range.1 (range.2 - range.1)).foldlM
    (cellStep trialOf stOf l2_conf evb l2evsets) diag

/-- `build_evcands_all_para(conf, l2evsets)` (`evset.c:364`) with `n_threads` workers: the
diagonal cells, `NULL` unless all are built, and every other cell the diagonal cell of its
colour shifted to its offset. -/
def buildEvcandsAllPara (trialOf : ℕ → σ → List ℕ → List ℕ → List ℕ × σ) (stOf : ℕ → σ)
    (l2_conf : EvBuildConf) (evb : EvBuffer) (n_unc_l2_sets n_threads : ℕ)
    (l2evsets : ℕ → ℕ → EvSet ℕ) : Except Fault (Option (List (List (Option EvCands)))) := do
  let diag ← (workerRanges n_threads n_unc_l2_sets).foldlM
    (candWorker trialOf stOf l2_conf evb l2evsets) (List.replicate n_unc_l2_sets none)
  if diag.all Option.isSome then
    pure (some ((List.range numOffsets).map fun n => (List.range n_unc_l2_sets).map fun i =>
      if n = i then diag.getD i none
      else (diag.getD i none).map fun c => evcandsShift c (n * clSize)))
  else pure none

/-! ## The ideal filter -/

/-- The line `a` lies in the L2 set of `t` once translated by `F`. -/
def inL2Set (F : ℕ → ℕ) (l2 : CacheInfo) (t a : ℕ) : Bool :=
  decide (cacheGetSib (physAddr F a) l2 = cacheGetSib (physAddr F t) l2)

/-- The ideal L2 filter for the filter set `ev`: in the trials of every batch, from every state
of the hardware, a line is counted over `upp_bnd` exactly when it lies in the L2 set of the
filter set's target. -/
def IdealFilter (trial : σ → List ℕ → List ℕ → List ℕ × σ) (conf : EvBuildConf)
    (F : ℕ → ℕ) (l2 : CacheInfo) (ev : EvSet ℕ) : Prop :=
  ∀ st (batch : List ℕ) i (hi : i < batch.length),
    (conf.upp_bnd < (batchTrials trial conf.lat_thresh ev.lines batch conf.trials st).1.getD i 0 ↔
      inL2Set F l2 ev.target_addr batch[i] = true)

/-- What `evcands_populate` leaves at `offset` with the filter set `ev` under the ideal
filter: the lines of the buffer in the L2 set of the target, in order, `none` when there are
none, and every line when the page offset already fixes the set. -/
def idealCands (F : ℕ → ℕ) (l2 : CacheInfo) (evb : EvBuffer) (offset : ℕ) (ev : EvSet ℕ) :
    Option EvCands :=
  if cacheUncertainty ev.target_cache = 1 then some ⟨bufLines evb offset, evb.n_pages⟩
  else
    let K := (bufLines evb offset).filter (inL2Set F l2 ev.target_addr)
    if K.length = 0 then none else some ⟨K, K.length⟩

/-! ## Under the ideal filter -/

section Ideal

variable {trial : σ → List ℕ → List ℕ → List ℕ × σ} {conf : EvBuildConf} {F : ℕ → ℕ}
  {l2 : CacheInfo} {ev : EvSet ℕ}

lemma batchPositives_ideal (h : IdealFilter trial conf F l2 ev) (batch : List ℕ) (st : σ) :
    batchPositives conf.upp_bnd batch
        (batchTrials trial conf.lat_thresh ev.lines batch conf.trials st).1 =
      batch.filter (inL2Set F l2 ev.target_addr) :=
  kept_eq_filter _ batch _ fun i hi =>
    Bool.eq_iff_iff.mpr (by rw [decide_eq_true_iff]; exact h st batch i hi)

/-- Under the ideal filter the votes of the batches select the lines in the L2 set of the
target, whatever the batches and the state. -/
lemma filterVotes_ideal (h : IdealFilter trial conf F l2 ev) :
    ∀ (batches : List (List ℕ)) (st : σ),
      (filterVotes trial conf ev.lines batches st).1 =
        batches.flatten.filter (inL2Set F l2 ev.target_addr)
  | [], _ => rfl
  | batch :: rest, st => by
    simp only [filterVotes, List.flatten_cons, List.filter_append, batchPositives_ideal h,
      filterVotes_ideal h rest]

lemma length_bufLines (evb : EvBuffer) (offset : ℕ) : (bufLines evb offset).length = evb.n_pages := by
  simp [bufLines]

/-- **`evcands_populate` under the ideal filter** keeps the lines of the buffer in the L2 set
of the filter set's target, in order, and fails when there are none.

**Proof sketch.** The batches of the filter cover the buffer's lines (`flatten_batchesOf`),
and their votes select the lines in the set (`filterVotes_ideal`); `evcandsFilterBatch_eq`
puts those at the front with their number. -/
lemma evcandsPopulate_ideal (h : IdealFilter trial conf F l2 ev)
    (hways : 1 ≤ ev.target_cache.n_ways) (evb : EvBuffer) (offset : ℕ) (st : σ) :
    ∃ st', evcandsPopulate trial conf evb offset (some ev) st =
      .ok (idealCands F l2 evb offset ev, st') := by
  unfold evcandsPopulate idealCands
  by_cases hu : cacheUncertainty ev.target_cache = 1
  · exact ⟨st, by simp [hu]⟩
  · obtain ⟨addrs', hrun, htake, -⟩ := evcandsFilterBatch_eq trial conf ev hways
      (le_of_eq (length_bufLines evb offset).symm) 0 st
    have hvotes : (filterVotes trial conf ev.lines (batchesOf (batchSize ev.target_cache.n_ways)
        ((bufLines evb offset).take evb.n_pages)) st).1 =
        (bufLines evb offset).filter (inL2Set F l2 ev.target_addr) := by
      rw [filterVotes_ideal h, flatten_batchesOf _ (batchSize_pos hways),
        List.take_of_length_le (le_of_eq (length_bufLines evb offset))]
    rw [hvotes] at hrun htake
    simp only [hu, if_false, hrun, ok_bind]
    split_ifs with hK
    · exact ⟨_, rfl⟩
    · exact ⟨_, by rw [htake]; rfl⟩

end Ideal

/-! ## Shifted lines and cells -/

section Shift

variable {F : ℕ → ℕ} {l2 : CacheInfo}

lemma mod_of_mem_bufLines {evb : EvBuffer} {o a : ℕ} (ho : o < pageSize)
    (ha : a ∈ bufLines evb o) : a % pageSize = o := by
  obtain ⟨n, -, rfl⟩ := List.mem_map.mp ha
  have := evb.aligned
  unfold pageSize at *
  omega

/-- Moving the lines of the buffer at offset `o` to offset `o'` gives its lines at `o'`: the
buffer is page-aligned. -/
lemma bufLines_shift (evb : EvBuffer) {o : ℕ} (ho : o < pageSize) (o' : ℕ) :
    (bufLines evb o).map (fun a => a / pageSize * pageSize + o') = bufLines evb o' := by
  unfold bufLines
  rw [List.map_map]
  refine List.map_congr_left fun n _ => ?_
  have := evb.aligned
  unfold pageSize at *
  simp only [Function.comp_apply]
  omega

/-- Two lines at one page offset lie in one L2 set exactly when they do once moved to any other
offset: the set index is the line offset plus the frame bits (`cacheGetSib_physAddr`). -/
lemma cacheGetSib_shift_iff (hc : L2Geometry l2) {o : ℕ} (ho : o < pageSize) {x y : ℕ}
    (hxy : x % pageSize = y % pageSize) :
    inL2Set F l2 (y / pageSize * pageSize + o) (x / pageSize * pageSize + o) = inL2Set F l2 y x := by
  simp only [inL2Set, cacheGetSib_physAddr hc, pageBase_add_div ho, pageBase_add_mod ho, hxy,
    add_right_inj]

lemma evcandsShift_evcandsShift {o : ℕ} (ho : o < pageSize) (c : EvCands) (o' : ℕ) :
    evcandsShift (evcandsShift c o) o' = evcandsShift c o' := by
  simp only [evcandsShift, EvCands.mk.injEq, and_true]
  rw [List.take_of_length_le (by simp), List.map_map]
  exact List.map_congr_left fun a _ => by simp [pageBase_add_div ho]

/-- **The cell of a shifted filter set** is the cell of the original set, shifted: for a
target at the start of its page, the lines at offset `o` in the set of the shifted target are
the lines at offset `0` in the set of the target, moved to `o`. -/
lemma idealCands_shift (hc : L2Geometry l2) {o : ℕ} (ho : o < pageSize) (evb : EvBuffer)
    {E : EvSet ℕ} (ht : E.target_addr % pageSize = 0) :
    idealCands F l2 evb o (evsetShift E o) =
      (idealCands F l2 evb 0 E).map fun c => evcandsShift c o := by
  have hmap := bufLines_shift evb (show 0 < pageSize by decide) o
  -- the filter at `o` is the filter at `0`, moved
  have hK : (bufLines evb o).filter (inL2Set F l2 (evsetShift E o).target_addr) =
      ((bufLines evb 0).filter (inL2Set F l2 E.target_addr)).map
        fun a => a / pageSize * pageSize + o := by
    rw [← hmap, List.filter_map]
    refine congrArg _ (List.filter_congr fun a ha => ?_)
    exact cacheGetSib_shift_iff hc ho
      ((mod_of_mem_bufLines (by decide) ha).trans ht.symm)
  have htarget : (evsetShift E o).target_cache = E.target_cache := rfl
  unfold idealCands
  rw [htarget]
  split_ifs with hu
  · simp only [Option.map_some, evcandsShift, List.take_of_length_le
      (le_of_eq (length_bufLines evb 0)), hmap]
  · dsimp only
    rw [hK, List.length_map]
    split_ifs
    · rfl
    · simp only [Option.map_some, evcandsShift, List.take_length]

end Shift

/-! ## The sequential complex -/

section Sequential

variable {trial : σ → List ℕ → List ℕ → List ℕ × σ} {l2_conf : EvBuildConf} {evb : EvBuffer}
  {l2evsets : ℕ → ℕ → EvSet ℕ}

lemma map_filterMap_of_isSome {α β : Type} (P : α → Option EvCands) (h : EvCands → β) :
    ∀ l : List α, (∀ i ∈ l, (P i).isSome) →
      (l.filterMap P).map (fun c => some (h c)) = l.map fun i => (P i).map h
  | [], _ => rfl
  | i :: l, hl => by
    obtain ⟨c, hc⟩ := Option.isSome_iff_exists.mp (hl i (List.mem_cons_self ..))
    simp only [List.filterMap_cons, List.map_cons, hc, Option.map_some,
      map_filterMap_of_isSome P h l fun j hj => hl j (List.mem_cons_of_mem i hj)]

/-- **The first row of `build_evcands_all`.** When the cell of colour `i` at offset `0` is
`P i` from every state, the row is the list of the cells, or `none` once one is `none`.

**Proof sketch.** Induction on `n`: the cell of colour `n` is the last step of the fold. -/
lemma foldlM_rowStep (P : ℕ → Option EvCands) (n : ℕ)
    (hP : ∀ i < n, ∀ st, ∃ st', evcandsPopulate trial l2_conf evb 0 (some (l2evsets 0 i)) st =
      .ok (P i, st')) (st : σ) :
    ∃ st', (List.range n).foldlM (rowStep trial l2_conf evb l2evsets) (some [], st) =
      .ok (if (List.range n).all (fun i => (P i).isSome) then
        some ((List.range n).filterMap P) else none, st') := by
  induction n with
  | zero => exact ⟨st, rfl⟩
  | succ n ih =>
    obtain ⟨st₁, h₁⟩ := ih fun i hi => hP i (by omega)
    rw [foldlM_range_succ_of_ok _ h₁]
    by_cases hall : (List.range n).all (fun i => (P i).isSome)
    · obtain ⟨st₂, h₂⟩ := hP n (by omega) st₁
      refine ⟨st₂, ?_⟩
      simp only [hall, if_true, rowStep, h₂, ok_bind, pure_eq_ok]
      cases hPn : P n <;>
        simp [List.range_succ, List.all_append, List.filterMap_append, hall, hPn]
    · exact ⟨st₁, by simp [rowStep, List.range_succ, List.all_append, hall]⟩

/-- **The sequential complex.** When the cell of colour `i` at offset `0` is `P i` from every
state, the cell at offset `n` is `P i` moved to `n`, and the complex is `NULL` once a cell of
the first row is. -/
lemma buildEvcandsAll_ideal (P : ℕ → Option EvCands) (n_unc_l2_sets : ℕ)
    (hP : ∀ i < n_unc_l2_sets, ∀ st, ∃ st',
      evcandsPopulate trial l2_conf evb 0 (some (l2evsets 0 i)) st = .ok (P i, st')) (st : σ) :
    ∃ st', buildEvcandsAll trial l2_conf evb n_unc_l2_sets l2evsets st =
      .ok (if (List.range n_unc_l2_sets).all (fun i => (P i).isSome) then
        some ((List.range numOffsets).map fun n => (List.range n_unc_l2_sets).map fun i =>
          (P i).map fun c => if n = 0 then c else evcandsShift c (n * clSize))
        else none, st') := by
  obtain ⟨st', h⟩ := foldlM_rowStep P n_unc_l2_sets hP st
  refine ⟨st', ?_⟩
  rw [buildEvcandsAll, h, ok_bind]
  split_ifs with hall
  · have hsome := List.all_eq_true.mp hall
    simp only [Option.map_some, pure_eq_ok]
    congr 3
    exact List.map_congr_left fun n _ => map_filterMap_of_isSome P _ _ hsome
  · rfl

end Sequential

/-! ## The parallel complex -/

section Parallel

variable {trialOf : ℕ → σ → List ℕ → List ℕ → List ℕ × σ} {stOf : ℕ → σ}
  {l2_conf : EvBuildConf} {evb : EvBuffer} {l2evsets : ℕ → ℕ → EvSet ℕ}

/-- After `t` workers the ranges cover the colours below `curr_idx`, which is
`t * base_load + min t remainder`. -/
lemma foldl_workerStep (n_threads n_unc_l2_sets t : ℕ) :
    (((List.range t).foldl (workerStep n_threads n_unc_l2_sets) ([], 0)).1.flatMap
        fun r => List.range' r.1 (r.2 - r.1)) =
        List.range ((List.range t).foldl (workerStep n_threads n_unc_l2_sets) ([], 0)).2 ∧
      ((List.range t).foldl (workerStep n_threads n_unc_l2_sets) ([], 0)).2 =
        t * (n_unc_l2_sets / n_threads) + min t (n_unc_l2_sets % n_threads) := by
  induction t with
  | zero => simp
  | succ t ih =>
    obtain ⟨hcov, hend⟩ := ih
    rw [foldl_range_succ]
    generalize (List.range t).foldl (workerStep n_threads n_unc_l2_sets) ([], 0) = acc at hcov hend
    simp only [workerStep, List.flatMap_append, List.flatMap_cons, List.flatMap_nil,
      List.append_nil, Nat.add_sub_cancel_left, hcov]
    refine ⟨by rw [List.range_add, List.range'_eq_map_range], ?_⟩
    rw [hend, Nat.succ_mul]
    split_ifs <;> omega

lemma candThreads_pos {n_unc_l2_sets : ℕ} (h : 0 < n_unc_l2_sets) (num_threads : ℕ)
    (nprocs : ℤ) : 0 < candThreads num_threads nprocs n_unc_l2_sets := by
  unfold candThreads nSystemCores
  split_ifs <;> omega

/-- **The workers cover the colours**: their ranges, in order, are `0, 1, …,
n_unc_l2_sets - 1`. -/
lemma flatMap_workerRanges (num_threads : ℕ) (nprocs : ℤ) (n_unc_l2_sets : ℕ) :
    ((workerRanges (candThreads num_threads nprocs n_unc_l2_sets) n_unc_l2_sets).flatMap
      fun r => List.range' r.1 (r.2 - r.1)) = List.range n_unc_l2_sets := by
  obtain ⟨hcov, hend⟩ := foldl_workerStep (candThreads num_threads nprocs n_unc_l2_sets)
    n_unc_l2_sets (candThreads num_threads nprocs n_unc_l2_sets)
  rw [workerRanges, hcov, hend]
  rcases Nat.eq_zero_or_pos n_unc_l2_sets with hn | hn
  · simp [hn, candThreads]
  · have hT := candThreads_pos hn num_threads nprocs
    rw [min_eq_right (Nat.mod_lt _ hT).le, Nat.div_add_mod]

/-- The workers one after another run the colours of their ranges one after another. -/
lemma foldlM_candWorker :
    ∀ (ranges : List (ℕ × ℕ)) (diag : List (Option EvCands)),
      ranges.foldlM (candWorker trialOf stOf l2_conf evb l2evsets) diag =
        (ranges.flatMap fun r => List.range' r.1 (r.2 - r.1)).foldlM
          (cellStep trialOf stOf l2_conf evb l2evsets) diag
  | [], _ => rfl
  | r :: ranges, diag => by
    simp only [List.foldlM_cons, List.flatMap_cons, List.foldlM_append, candWorker,
      foldlM_candWorker ranges]

/-- **The diagonal after the colours below `k`**: the cell of colour `i < k` is `D i`, the
others are still `NULL`. A failed build leaves its cell `NULL`. -/
lemma foldlM_cellStep (D : ℕ → Option EvCands) {n_unc_l2_sets : ℕ}
    (hD : ∀ i < n_unc_l2_sets, ∃ st', evcandsPopulate (trialOf i) l2_conf evb (i * clSize)
      (some (l2evsets i i)) (stOf i) = .ok (D i, st')) :
    ∀ k ≤ n_unc_l2_sets, (List.range k).foldlM (cellStep trialOf stOf l2_conf evb l2evsets)
        (List.replicate n_unc_l2_sets none) =
      .ok ((List.range n_unc_l2_sets).map fun i => if i < k then D i else none)
  | 0, _ => by simp
  | k + 1, hk => by
    obtain ⟨st', hk'⟩ := hD k hk
    rw [foldlM_range_succ_of_ok _ (foldlM_cellStep D hD k (by omega))]
    simp only [cellStep, buildSingleCand, hk', ok_bind, pure_eq_ok]
    cases hDk : D k with
    | none =>
      refine congrArg Except.ok (List.map_congr_left fun i _ => ?_)
      rcases lt_trichotomy i k with h | rfl | h
      · simp [h, Nat.lt_succ_of_lt h]
      · simp [hDk]
      · simp [Nat.not_lt.mpr h.le, show ¬i < k + 1 by omega]
    | some c =>
      refine congrArg Except.ok (List.ext_getElem (by simp) fun i _ _ => ?_)
      simp only [List.getElem_set, List.getElem_map, List.getElem_range]
      rcases lt_trichotomy i k with h | rfl | h
      · simp [h.ne', h, Nat.lt_succ_of_lt h]
      · simp [hDk]
      · simp [h.ne, Nat.not_lt.mpr h.le, show ¬i < k + 1 by omega]

/-- **The parallel complex.** When the worker of colour `i` builds the cell `D i`, the
diagonal is `D`, and the cell at offset `n` is `D i` moved to `n`; the complex is `NULL` once
a diagonal cell is. -/
lemma buildEvcandsAllPara_ideal (D : ℕ → Option EvCands) (n_unc_l2_sets : ℕ)
    (hD : ∀ i < n_unc_l2_sets, ∃ st', evcandsPopulate (trialOf i) l2_conf evb (i * clSize)
      (some (l2evsets i i)) (stOf i) = .ok (D i, st')) (num_threads : ℕ) (nprocs : ℤ) :
    buildEvcandsAllPara trialOf stOf l2_conf evb n_unc_l2_sets
        (candThreads num_threads nprocs n_unc_l2_sets) l2evsets =
      .ok (if (List.range n_unc_l2_sets).all (fun i => (D i).isSome) then
        some ((List.range numOffsets).map fun n => (List.range n_unc_l2_sets).map fun i =>
          if n = i then D i else (D i).map fun c => evcandsShift c (n * clSize))
        else none) := by
  have hdiag : ((List.range n_unc_l2_sets).map fun i => if i < n_unc_l2_sets then D i else none) =
      (List.range n_unc_l2_sets).map D :=
    List.map_congr_left fun i hi => if_pos (List.mem_range.mp hi)
  have hget : ∀ i < n_unc_l2_sets, ((List.range n_unc_l2_sets).map D).getD i none = D i :=
    fun i hi => by simp [List.getD_eq_getElem?_getD, hi]
  rw [buildEvcandsAllPara, foldlM_candWorker, flatMap_workerRanges,
    foldlM_cellStep D hD n_unc_l2_sets le_rfl, ok_bind, hdiag, List.all_map, Function.comp_def]
  split_ifs with hall
  · refine congrArg (fun x => Except.ok (some x))
      (List.map_congr_left fun n _ => List.map_congr_left fun i hi => ?_)
    rw [hget i (List.mem_range.mp hi)]
  · rfl

end Parallel

/-! ## A hardware that filters ideally -/

/-- A hardware whose trials filter ideally: a line of the batch reloads slowly after the
filter set's lines exactly when it lies in the L2 set of their first line. -/
def headTrial (F : ℕ → ℕ) (l2 : CacheInfo) (slow fast : ℕ) (st : σ) (lines batch : List ℕ) :
    List ℕ × σ :=
  (batch.map fun a => if inL2Set F l2 (lines.headD 0) a then slow else fast, st)

/-- `headTrial` is an ideal filter for every filter set whose first line lies in the L2 set
of its target, once its slow latency is over the threshold, its fast one is not, and there are
more trials than `upp_bnd`. -/
lemma idealFilter_headTrial {F : ℕ → ℕ} {l2 : CacheInfo} {conf : EvBuildConf} {ev : EvSet ℕ}
    {slow fast : ℕ} (hslow : overThresh conf.lat_thresh slow = true)
    (hfast : overThresh conf.lat_thresh fast = false) (htrials : conf.upp_bnd < conf.trials)
    (hhead : inL2Set F l2 ev.target_addr (ev.lines.headD 0) = true) :
    IdealFilter (@headTrial σ F l2 slow fast) conf F l2 ev := by
  intro st batch i hi
  have hsame : inL2Set F l2 (ev.lines.headD 0) batch[i] = inL2Set F l2 ev.target_addr batch[i] := by
    simp only [inL2Set, of_decide_eq_true hhead]
  rw [batchTrials_of_steady (@headTrial σ F l2 slow fast) ev.lines conf.lat_thresh batch
    (batch.map fun a => if inL2Set F l2 (ev.lines.headD 0) a then slow else fast) fun _ => rfl]
  simp only [List.getD_eq_getElem?_getD, List.getElem?_map, List.getElem?_range hi,
    List.getElem?_eq_getElem hi, Option.map_some, Option.getD_some, hsame]
  cases inL2Set F l2 ev.target_addr batch[i] <;> simp [hslow, hfast, htrials]

/-! ## The two complexes agree -/

/-- **The parallel complex is the sequential one.** Under an ideal L2 filter for every filter
set, with the sets of offset `n` the sets of offset `0` shifted to `n · CL_SIZE` and at most
`NUM_OFFSETS` colours, `build_evcands_all_para` returns `NULL` exactly when
`build_evcands_all` does, and otherwise the same complex, for every number of threads, every
buffer and every state of the hardware.

**Proof sketch.** Both complexes are the cells of their diagonal moved to every offset
(`buildEvcandsAll_ideal`, `buildEvcandsAllPara_ideal`). The diagonal cell of colour `i` is the
cell of offset `0` moved to `64 i` (`idealCands_shift`), and moving a moved cell is moving the
original one (`evcandsShift_evcandsShift`); the cells of offset `0` stay where they are, since
the sets of offset `0` are their own shift to `0`. -/
theorem buildEvcandsAllPara_eq {l2 : CacheInfo} (hl2 : L2Geometry l2) {n_unc_l2_sets : ℕ}
    (hunc : n_unc_l2_sets ≤ numOffsets) (F : ℕ → ℕ) (evb : EvBuffer) (l2_conf : EvBuildConf)
    {l2evsets : ℕ → ℕ → EvSet ℕ}
    (hways : ∀ i < n_unc_l2_sets, 1 ≤ (l2evsets 0 i).target_cache.n_ways)
    (hshift : ∀ n < numOffsets, ∀ i < n_unc_l2_sets,
      l2evsets n i = evsetShift (l2evsets 0 i) (n * clSize))
    {trial : σ → List ℕ → List ℕ → List ℕ × σ}
    (hideal : ∀ i < n_unc_l2_sets, IdealFilter trial l2_conf F l2 (l2evsets 0 i))
    {trialOf : ℕ → σ → List ℕ → List ℕ → List ℕ × σ}
    (hidealOf : ∀ i < n_unc_l2_sets, IdealFilter (trialOf i) l2_conf F l2 (l2evsets i i))
    (num_threads : ℕ) (nprocs : ℤ) (st : σ) (stOf : ℕ → σ) :
    ∃ complex st', buildEvcandsAll trial l2_conf evb n_unc_l2_sets l2evsets st = .ok (complex, st') ∧
      buildEvcandsAllPara trialOf stOf l2_conf evb n_unc_l2_sets
        (candThreads num_threads nprocs n_unc_l2_sets) l2evsets = .ok complex := by
  let P : ℕ → Option EvCands := fun i => idealCands F l2 evb 0 (l2evsets 0 i)
  let D : ℕ → Option EvCands := fun i => idealCands F l2 evb (i * clSize) (l2evsets i i)
  have hoff : ∀ i < n_unc_l2_sets, i * clSize < pageSize := fun i hi => by
    unfold numOffsets clSize pageSize at *
    omega
  have hzero : ∀ i < n_unc_l2_sets, evsetShift (l2evsets 0 i) 0 = l2evsets 0 i := fun i hi => by
    simpa using (hshift 0 (by decide) i hi).symm
  have halign : ∀ i < n_unc_l2_sets, (l2evsets 0 i).target_addr % pageSize = 0 := fun i hi => by
    rw [← hzero i hi]
    simp only [evsetShift, add_zero, Nat.mul_mod_left]
  -- the diagonal cell is the cell of offset `0`, moved; the cells of offset `0` stay put
  have hD : ∀ i < n_unc_l2_sets, D i = (P i).map fun c => evcandsShift c (i * clSize) :=
    fun i hi => by
      simp only [D, P, hshift i (by omega) i hi]
      exact idealCands_shift hl2 (hoff i hi) evb (halign i hi)
  have hP0 : ∀ i < n_unc_l2_sets, (P i).map (fun c => evcandsShift c 0) = P i := fun i hi => by
    have h := idealCands_shift (F := F) hl2 (show 0 < pageSize by decide) evb (halign i hi)
    rw [hzero i hi] at h
    exact h.symm
  have hcell : ∀ n < numOffsets, ∀ i < n_unc_l2_sets,
      (if n = i then D i else (D i).map fun c => evcandsShift c (n * clSize)) =
        (P i).map fun c => if n = 0 then c else evcandsShift c (n * clSize) := by
    intro n _ i hi
    have hseq : ((P i).map fun c => if n = 0 then c else evcandsShift c (n * clSize)) =
        (P i).map fun c => evcandsShift c (n * clSize) := by
      by_cases hn : n = 0
      · subst hn
        simpa using (hP0 i hi).symm
      · simp only [hn, if_false]
    rw [hseq, hD i hi]
    split_ifs with hni
    · rw [hni]
    · simp only [Option.map_map, Function.comp_def, evcandsShift_evcandsShift (hoff i hi)]
  have hsome : ((List.range n_unc_l2_sets).all fun i => (D i).isSome) =
      (List.range n_unc_l2_sets).all fun i => (P i).isSome := by
    rw [Bool.eq_iff_iff, List.all_eq_true, List.all_eq_true]
    exact forall₂_congr fun i hi => by rw [hD i (List.mem_range.mp hi), Option.isSome_map]
  obtain ⟨st', hseq⟩ := buildEvcandsAll_ideal P n_unc_l2_sets
    (fun i hi st => evcandsPopulate_ideal (hideal i hi) (hways i hi) evb 0 st) st
  have hpara := buildEvcandsAllPara_ideal D n_unc_l2_sets (fun i hi =>
    evcandsPopulate_ideal (hidealOf i hi)
      (by rw [hshift i (by omega) i hi]; exact hways i hi) evb (i * clSize) (stOf i))
    num_threads nprocs
  refine ⟨_, st', hseq, hpara.trans ?_⟩
  rw [hsome]
  split_ifs
  · refine congrArg (fun x => Except.ok (some x))
      (List.map_congr_left fun n hn => List.map_congr_left fun i hi => ?_)
    exact hcell n (List.mem_range.mp hn) i (List.mem_range.mp hi)
  · rfl

/-- Two colours over a four-page buffer, the set of colour `i` targeting page `i` and holding
a line of page `i + 2`, measured by an ideally filtering hardware. -/
theorem buildEvcandsAllPara_eq_twoColours :
    ∃ complex st', buildEvcandsAll (headTrial id ⟨64, 6, 7, 4, 1, 1⟩ 500 10) (initDefL2Conf 0 100)
        ⟨0, 4, rfl⟩ 2 (fun n i => if n = 0 then
          ⟨[i * 4096 + 8192], 1, 1, i * 4096, initDefL2Conf 0 0, ⟨64, 6, 7, 4, 1, 1⟩⟩
          else evsetShift ⟨[i * 4096 + 8192], 1, 1, i * 4096, initDefL2Conf 0 0,
            ⟨64, 6, 7, 4, 1, 1⟩⟩ (n * clSize)) () = .ok (complex, st') ∧
      buildEvcandsAllPara (fun _ => headTrial id ⟨64, 6, 7, 4, 1, 1⟩ 500 10) (fun _ => ())
        (initDefL2Conf 0 100) ⟨0, 4, rfl⟩ 2 (candThreads 0 4 2) (fun n i => if n = 0 then
          ⟨[i * 4096 + 8192], 1, 1, i * 4096, initDefL2Conf 0 0, ⟨64, 6, 7, 4, 1, 1⟩⟩
          else evsetShift ⟨[i * 4096 + 8192], 1, 1, i * 4096, initDefL2Conf 0 0,
            ⟨64, 6, 7, 4, 1, 1⟩⟩ (n * clSize)) = .ok complex :=
  buildEvcandsAllPara_eq ⟨rfl, by decide, by decide, by decide⟩ (by decide) id ⟨0, 4, rfl⟩
    (initDefL2Conf 0 100) (by decide)
    (fun n _ i hi => by
      by_cases hn : n = 0
      · subst hn
        interval_cases i <;> decide
      · simp [hn])
    (fun i hi => idealFilter_headTrial (by decide) (by decide) (by decide)
      (by interval_cases i <;> decide))
    (fun i hi => idealFilter_headTrial (by decide) (by decide) (by decide)
      (by interval_cases i <;> decide))
    0 4 () fun _ => ()

end EvCache
