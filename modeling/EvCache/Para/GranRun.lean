import EvCache.Lib.Interleave
import EvCache.Evset.BuildAt
import EvCache.Para.Gran

set_option autoImplicit false

/-!
# The thread pairs of `build_l3_evsets_para_gran` do not race

`build_l3_evsets_para_gran` (`src/src/evset_para.c`) starts one thread pair per run of cells
that `calc_gran_assignments` hands out, and every pair's `evset_thread_worker_gran` loops over
its cells `(offset_idx, l2_set_idx)`: it builds the LLC eviction sets of the cell with
`build_evsets_at` on the candidate pool `l3_cands[offset_idx][l2_set_idx]`, which it permutes
in place, stores the array of sets in `result_complex[offset_idx][l2_set_idx]` and counts the
non-empty ones in its own `total_built`. The pairs share the two complexes and nothing else
they write.

Each iteration reads and writes one cell, and no two pairs have a cell in common
(`granThreadCells_disjoint`), so the library of `EvCache.Lib.Interleave` applies: however
the iterations of the pairs interleave, once every pair has run through its cells the
complexes and the counters are those of the pairs run one after another, each cell holds what
its one owner computes running alone, and every cell outside `[0, n_offsets) × [0, n_l2_sets)`
is as it was.

## Main definitions

* `EvCache.Para.GranCell` — a cell of the candidate and result complexes.
* `EvCache.Para.granBuildCell` — the body of the worker's loop on one cell.
* `EvCache.Para.evsetThreadWorkerGran` — `evset_thread_worker_gran`.
* `EvCache.Para.granPairs` — the thread pairs as the builder starts them.

## Main results

* `EvCache.Para.granPairs_run_eq_runSeq` — every complete interleaving of the pairs ends where
  the pairs run one after another end.
* `EvCache.Para.granPairs_run_cells` — what each cell and each pair's `total_built` hold.

## Model

A step of a pair is one whole iteration of its loop, the call of `build_evsets_at` with it:
every access of that call to the shared complexes is to the cell of the iteration, so a finer
split into steps gives a program with the same footprint. The rest a call touches is the
pair's own: its configuration `tp->l3_conf`, its helper thread and the sets it allocates; the
L2 sets `l2evsets` and the globals `l3_info`, `g_config` and `g_lats` are only read. The
measurements of a pair are an oracle with a state of its own, from `stOf i`; what the other
pairs do to the cache enters through the answers of that oracle, never through memory. The
configuration of every cell is `l3_conf`: `init_def_l3_conf` fills it from `g_config` and
`g_lats`, which no worker writes. The atomic counter `n_pair_init_done`, the pinning and the
printing are left out: no worker reads any of them. A fault of the model (an access out of
bounds in `build_evsets_at`) ends the pair's work with the fault and leaves the cell as it
was.

## References

* `src/src/evset_para.c`, lines 281-355 and 357-556; `src/src/evset.c`, lines 794-830 and
  1990-2133.
-/

namespace EvCache.Para

open Interleave CArray

variable {σ : Type}

/-- A cell `(offset_idx, l2_set_idx)` of the two complexes a thread pair works on: the pool
`l3_cands[offset_idx][l2_set_idx]` and the result `result_complex[offset_idx][l2_set_idx]`
(`none` for `NULL`, as `_calloc` leaves it). -/
structure GranCell where
  cands : Option (List ℕ)
  result : Option (List (Option (EvSet ℕ)))

/-- The local variables of a thread pair: its `total_built` and the state of its measurements,
or the fault that ended its work. -/
abbrev GranLocal (σ : Type) := Except Fault (ℕ × σ)

/-- The sets `evset_thread_worker_gran` counts in `total_built` (`evset_para.c:323-333`): the
entries of `l3_evsets[0..l3_cnt)` that are set and not empty. -/
def nBuilt (l3_evsets : Option (List (Option (EvSet ℕ)))) (l3_cnt : ℕ) : ℕ :=
  match l3_evsets with
  | none => 0
  | some arr => (List.range l3_cnt).countP fun j =>
    match arr.getD j none with
    | some ev => ev.size ≠ 0
    | none => false

section Worker

variable (detailed : σ → ℕ → List ℕ → EvTestRes × σ) (timedOut : σ → Bool) (l3 : CacheInfo)
  (l3_conf : EvBuildConf) (l2evsets : ℕ → ℕ → Option (EvSet ℕ))
  (populated : ℕ → ℕ → Option (List ℕ)) (evsets_per_l2 : ℕ)

/-- The body of the loop of `evset_thread_worker_gran` (`evset_para.c:308-341`) on the cell
`(offset_idx, l2_set_idx)`: `build_evsets_at` at offset `offset_idx * CL_SIZE` with the
configuration `l3_conf`, the L2 set `l2evsets[offset_idx][l2_set_idx]` as its filter, no
lower-level sets and at most `evsets_per_l2` sets, `populated` standing for what
`evcands_populate` gives it when the pool is `NULL`. The pool is permuted in place and the
array of sets goes to the result; a pool populated inside the call is not the cell's. -/
def granBuildCell (offset_idx l2_set_idx : ℕ) (loc : GranLocal σ) (cell : GranCell) :
    GranLocal σ × GranCell :=
  match loc with
  | .error e => (.error e, cell)
  | .ok (total_built, st) =>
    match buildEvsetsAt detailed timedOut l3 l3_conf l3
        ((l2evsets offset_idx l2_set_idx).map EvSet.target_cache) cell.cands
        (populated offset_idx l2_set_idx) [] evsets_per_l2 st with
    | .error e => (.error e, cell)
    | .ok (l3_evsets, l3_cnt, pool, st) =>
      (.ok (total_built + nBuilt l3_evsets l3_cnt, st),
        ⟨if cell.cands.isSome then pool else cell.cands, l3_evsets⟩)

/-- The iteration of the worker's loop on the cell `k`, as a step of its pair over the
complexes. -/
def granIteration (k : ℕ × ℕ) : Step (GranLocal σ) (ℕ × ℕ) GranCell :=
  Interleave.cellStep k
    (granBuildCell detailed timedOut l3 l3_conf l2evsets populated evsets_per_l2 k.1 k.2)

/-- `evset_thread_worker_gran(arg)` (`evset_para.c:281`) on the cells of its assignment: the
loop over them from `total_built = 0` and the measurement state `st`, on the complexes
`store`. -/
def evsetThreadWorkerGran (cells : List (ℕ × ℕ)) (st : σ) (store : ℕ × ℕ → GranCell) :
    GranLocal σ × (ℕ × ℕ → GranCell) :=
  cells.foldl (fun p k =>
      granIteration detailed timedOut l3 l3_conf l2evsets populated evsets_per_l2 k p.1 p.2)
    (.ok (0, st), store)

/-- The thread pairs as `build_l3_evsets_para_gran` starts them (`evset_para.c:488-526`): pair
`i` with the cells `cells[i]` and its measurement state `stOf i`, over the complexes
`store`. -/
def granPairs (cells : List (List (ℕ × ℕ))) (stOf : ℕ → σ) (store : ℕ × ℕ → GranCell) :
    Config ℕ (GranLocal σ) (ℕ × ℕ) GranCell :=
  ⟨fun i => (cells.getD i []).map
      (granIteration detailed timedOut l3 l3_conf l2evsets populated evsets_per_l2),
    fun i => .ok (0, stOf i), store⟩

/-! ## The footprints of the pairs -/

/-- Pair `i` run alone is its worker. -/
lemma runAlone_granPairs (cells : List (List (ℕ × ℕ))) (stOf : ℕ → σ)
    (store : ℕ × ℕ → GranCell) (i : ℕ) :
    runAlone ((granPairs detailed timedOut l3 l3_conf l2evsets populated evsets_per_l2 cells stOf
        store).prog i) (.ok (0, stOf i)) store =
      evsetThreadWorkerGran detailed timedOut l3 l3_conf l2evsets populated evsets_per_l2
        (cells.getD i []) (stOf i) store :=
  runAlone_map _ _ _ _

/-- Every step of pair `i` touches the complexes only at the cells of `cells[i]`. -/
lemma granPairs_confined (cells : List (List (ℕ × ℕ))) (stOf : ℕ → σ)
    (store : ℕ × ℕ → GranCell) (i : ℕ) :
    ∀ f ∈ (granPairs detailed timedOut l3 l3_conf l2evsets populated evsets_per_l2 cells stOf
        store).prog i, Confined (listFootprint cells i) f := by
  intro f hf
  obtain ⟨k, hk, rfl⟩ := List.mem_map.mp hf
  exact (confined_cellStep k _).mono (Set.singleton_subset_iff.mpr hk)

end Worker

/-! ## The cells of the pairs -/

/-- The cells of all pairs are the cells of `all_work`, in its order. -/
lemma flatten_granThreadCells {n_pairs n_offsets n_l2_sets : ℕ}
    (hT : n_offsets * n_l2_sets < 2 ^ 32) (valid_vcpu_pairs : Option ℕ)
    {cells : List (List (ℕ × ℕ))}
    (h : granThreadCells n_pairs valid_vcpu_pairs n_offsets n_l2_sets = some cells) :
    cells.flatten = (allWork n_offsets n_l2_sets).map fun w => (w.offset_idx, w.l2_set_idx) := by
  set T := n_offsets * n_l2_sets with hTdef
  have hmod : T % 2 ^ 32 = T := Nat.mod_eq_of_lt hT
  unfold granThreadCells at h
  simp only [← hTdef, hmod] at h
  -- the number of pairs that reach `calc_gran_assignments`
  obtain ⟨q, hqT, h⟩ : ∃ q ≤ T, (calcGranAssignments q n_offsets n_l2_sets).1.map
      (fun pas => (List.range q).map fun i => workerCells (pas.getD i ⟨[], 0, 0⟩)) = some cells := by
    cases valid_vcpu_pairs with
    | none => exact ⟨_, by dsimp only; split_ifs <;> omega, h⟩
    | some v => exact ⟨_, by dsimp only; split_ifs <;> omega, h⟩
  by_cases hq₀ : q = 0
  · simp [hq₀, calcGranAssignments, ← hTdef] at h
  by_cases hT₀ : T = 0
  · simp [hT₀, calcGranAssignments, ← hTdef] at h
  obtain ⟨pas, hcalc, hlen, hflat, hcount⟩ := calcGranAssignments_spec (Nat.pos_of_ne_zero hq₀)
    (Nat.pos_of_ne_zero hT₀) hT
  rw [hcalc, Option.map_some, Option.some.injEq] at h
  rw [← hTdef, Nat.min_eq_left hqT] at hlen
  have hcells : cells = pas.map workerCells := by
    rw [← h, ← hlen]
    apply List.ext_getElem (by simp)
    intro i h₁ h₂
    have hi : i < pas.length := by simpa using h₂
    simp [List.getElem?_eq_getElem hi]
  have hworker : pas.map workerCells = pas.map fun pa =>
      pa.assignments.map fun w => (w.offset_idx, w.l2_set_idx) :=
    List.map_congr_left fun pa hpa => workerCells_eq (hcount pa hpa).1
  rw [hcells, hworker, ← List.flatMap_def, ← List.map_flatMap, hflat]

/-- A cell belongs to some pair exactly when it lies in `[0, n_offsets) × [0, n_l2_sets)`. -/
lemma mem_granThreadCells {n_pairs n_offsets n_l2_sets : ℕ}
    (hT : n_offsets * n_l2_sets < 2 ^ 32) (valid_vcpu_pairs : Option ℕ)
    {cells : List (List (ℕ × ℕ))}
    (h : granThreadCells n_pairs valid_vcpu_pairs n_offsets n_l2_sets = some cells)
    (k : ℕ × ℕ) :
    (∃ i < cells.length, k ∈ cells.getD i []) ↔ k.1 < n_offsets ∧ k.2 < n_l2_sets := by
  have hflat := flatten_granThreadCells hT valid_vcpu_pairs h
  constructor
  · rintro ⟨i, hi, hk⟩
    have hmem : k ∈ cells.flatten := by
      rw [List.getD_eq_getElem _ _ hi] at hk
      exact List.mem_flatten.mpr ⟨_, List.getElem_mem hi, hk⟩
    rw [hflat] at hmem
    obtain ⟨w, hw, rfl⟩ := List.mem_map.mp hmem
    exact mem_allWork.mp hw
  · intro hk
    have hmem : k ∈ cells.flatten := by
      rw [hflat]
      exact List.mem_map.mpr ⟨⟨k.1, k.2⟩, mem_allWork.mpr hk, rfl⟩
    obtain ⟨c, hc, hkc⟩ := List.mem_flatten.mp hmem
    obtain ⟨i, hi, rfl⟩ := List.getElem_of_mem hc
    exact ⟨i, hi, by rwa [List.getD_eq_getElem _ _ hi]⟩

/-! ## No races -/

section Run

variable (detailed : σ → ℕ → List ℕ → EvTestRes × σ) (timedOut : σ → Bool) (l3 : CacheInfo)
  (l3_conf : EvBuildConf) (l2evsets : ℕ → ℕ → Option (EvSet ℕ))
  (populated : ℕ → ℕ → Option (List ℕ)) (evsets_per_l2 : ℕ)
  {n_pairs n_offsets n_l2_sets : ℕ} {valid_vcpu_pairs : Option ℕ} {cells : List (List (ℕ × ℕ))}
  (stOf : ℕ → σ) (store : ℕ × ℕ → GranCell)

/-- Every schedule of the pairs agrees with the pairs run alone. -/
lemma granPairs_agrees (hT : n_offsets * n_l2_sets < 2 ^ 32)
    (hcells : granThreadCells n_pairs valid_vcpu_pairs n_offsets n_l2_sets = some cells) (sched : List ℕ) :
    Agrees (listFootprint cells) (granPairs detailed timedOut l3 l3_conf l2evsets populated
        evsets_per_l2 cells stOf store)
      ((granPairs detailed timedOut l3 l3_conf l2evsets populated evsets_per_l2 cells stOf
        store).run sched) :=
  run_agrees (pairwise_disjoint_listFootprint (granThreadCells_disjoint hT valid_vcpu_pairs
    hcells).2) (granPairs_confined detailed timedOut l3 l3_conf l2evsets populated evsets_per_l2
      cells stOf store) sched

/-- After every interleaving that gives each pair as many turns as it has cells, each pair's
local state and the cells of its own are what its worker leaves running alone. -/
lemma granPairs_run_of_done (hT : n_offsets * n_l2_sets < 2 ^ 32)
    (hcells : granThreadCells n_pairs valid_vcpu_pairs n_offsets n_l2_sets = some cells)
    {sched : List ℕ} (hturns : ∀ i, (cells.getD i []).length ≤ sched.count i) (i : ℕ) :
    ((granPairs detailed timedOut l3 l3_conf l2evsets populated evsets_per_l2 cells stOf
        store).run sched).loc i =
      (evsetThreadWorkerGran detailed timedOut l3 l3_conf l2evsets populated evsets_per_l2
        (cells.getD i []) (stOf i) store).1 ∧
    ∀ k ∈ cells.getD i [], ((granPairs detailed timedOut l3 l3_conf l2evsets populated
        evsets_per_l2 cells stOf store).run sched).store k =
      (evsetThreadWorkerGran detailed timedOut l3 l3_conf l2evsets populated evsets_per_l2
        (cells.getD i []) (stOf i) store).2 k := by
  have hagree := granPairs_agrees detailed timedOut l3 l3_conf l2evsets populated evsets_per_l2
    stOf store hT hcells sched
  have hdone := Config.run_prog_eq_nil (c := granPairs detailed timedOut l3 l3_conf l2evsets
    populated evsets_per_l2 cells stOf store) fun i => by simpa [granPairs] using hturns i
  have hrun := runAlone_granPairs detailed timedOut l3 l3_conf l2evsets populated evsets_per_l2
    cells stOf store i
  obtain ⟨hloc, hst⟩ := hagree.of_done (hdone i)
  exact ⟨hloc.trans (congrArg Prod.fst hrun), fun k hk =>
    (hst k hk).trans (congrFun (congrArg Prod.snd hrun) k)⟩

/-- **The thread pairs of the granular builder do not race.** For every number of pairs and
every result of `--vtop`, every interleaving of the pairs' iterations that gives each pair as
many turns as it has cells, the join of `build_l3_evsets_para_gran` waiting for all of them,
ends with the same complexes and the same local variables as the pairs run one after another,
whatever the measurements answer.

**Proof sketch.** `granThreadCells_disjoint` makes the footprints disjoint, every iteration
is confined to its cell, and `Interleave.run_eq_runSeq` applies. -/
theorem granPairs_run_eq_runSeq (hT : n_offsets * n_l2_sets < 2 ^ 32)
    (hcells : granThreadCells n_pairs valid_vcpu_pairs n_offsets n_l2_sets = some cells) {sched : List ℕ}
    (hturns : ∀ i, (cells.getD i []).length ≤ sched.count i) :
    (granPairs detailed timedOut l3 l3_conf l2evsets populated evsets_per_l2 cells stOf
        store).run sched =
      (granPairs detailed timedOut l3 l3_conf l2evsets populated evsets_per_l2 cells stOf
        store).runSeq (List.range cells.length) := by
  refine run_eq_runSeq (pairwise_disjoint_listFootprint
      (granThreadCells_disjoint hT valid_vcpu_pairs hcells).2)
    (granPairs_confined detailed timedOut l3 l3_conf l2evsets populated evsets_per_l2 cells stOf
      store) (Config.run_prog_eq_nil fun i => by simpa [granPairs] using hturns i) fun i hi => ?_
  -- a pair past the last one has no cells
  by_contra hout
  have hlen : cells.length ≤ i := by simpa using hout
  exact hi (by simp [granPairs, List.getElem?_eq_none hlen])

/-- Two pairs on two offsets of one L2 set, the second pair taking its turn first. -/
theorem granPairs_run_eq_runSeq_two :
    (granPairs (fun st _ _ => (EvTestRes.evPos, st)) (fun _ : Unit => false) ⟨64, 6, 11, 16, 1, 0⟩
        (initDefL3Conf 0 100 0) (fun _ _ => none) (fun _ _ => none) 1 [[(0, 0)], [(1, 0)]]
        (fun _ => ()) (fun _ => ⟨some [1, 2, 3], none⟩)).run [1, 0] =
      (granPairs (fun st _ _ => (EvTestRes.evPos, st)) (fun _ : Unit => false) ⟨64, 6, 11, 16, 1, 0⟩
        (initDefL3Conf 0 100 0) (fun _ _ => none) (fun _ _ => none) 1 [[(0, 0)], [(1, 0)]]
        (fun _ => ()) (fun _ => ⟨some [1, 2, 3], none⟩)).runSeq (List.range 2) :=
  granPairs_run_eq_runSeq _ _ _ _ _ _ _ _ _ (show 2 * 1 < 2 ^ 32 by norm_num)
    (show granThreadCells 2 none 2 1 = some [[(0, 0)], [(1, 0)]] by decide)
    (show ∀ i, ([[(0, 0)], [(1, 0)]].getD i []).length ≤ [1, 0].count i from
      fun i => by rcases i with _ | _ | i <;> simp)

/-- **What each cell of the complexes holds after the join.** After every interleaving that
gives each pair as many turns as it has cells, each pair's `total_built` and measurement state
are those of its worker run alone on the initial complexes, every cell
`(offset_idx, l2_set_idx)` of `[0, n_offsets) × [0, n_l2_sets)` holds what its one owner's
worker, run alone, leaves there, and every other cell is as it was.

**Proof sketch.** The agreement of every schedule (`granPairs_agrees`) at a schedule after
which all pairs are done, with `mem_granThreadCells` for the owner of a cell. -/
theorem granPairs_run_cells (hT : n_offsets * n_l2_sets < 2 ^ 32)
    (hcells : granThreadCells n_pairs valid_vcpu_pairs n_offsets n_l2_sets = some cells) {sched : List ℕ}
    (hturns : ∀ i, (cells.getD i []).length ≤ sched.count i) :
    (∀ i < cells.length,
      ((granPairs detailed timedOut l3 l3_conf l2evsets populated evsets_per_l2 cells stOf
          store).run sched).loc i =
        (evsetThreadWorkerGran detailed timedOut l3 l3_conf l2evsets populated evsets_per_l2
          (cells.getD i []) (stOf i) store).1) ∧
    (∀ k : ℕ × ℕ, k.1 < n_offsets → k.2 < n_l2_sets →
      ∃ i < cells.length, k ∈ cells.getD i [] ∧
        ((granPairs detailed timedOut l3 l3_conf l2evsets populated evsets_per_l2 cells stOf
            store).run sched).store k =
          (evsetThreadWorkerGran detailed timedOut l3 l3_conf l2evsets populated evsets_per_l2
            (cells.getD i []) (stOf i) store).2 k) ∧
    (∀ k : ℕ × ℕ, ¬ (k.1 < n_offsets ∧ k.2 < n_l2_sets) →
      ((granPairs detailed timedOut l3 l3_conf l2evsets populated evsets_per_l2 cells stOf
          store).run sched).store k = store k) := by
  have hdone := granPairs_run_of_done detailed timedOut l3 l3_conf l2evsets populated
    evsets_per_l2 stOf store hT hcells hturns
  refine ⟨fun i _ => (hdone i).1, fun k ho hs => ?_, fun k hk => ?_⟩
  · obtain ⟨i, hi, hki⟩ := (mem_granThreadCells hT valid_vcpu_pairs hcells k).mpr ⟨ho, hs⟩
    exact ⟨i, hi, hki, (hdone i).2 k hki⟩
  · refine (granPairs_agrees detailed timedOut l3 l3_conf l2evsets populated evsets_per_l2 stOf
      store hT hcells sched).outside k fun i hi => ?_
    -- a cell of a pair lies in the ranges
    have hlen : i < cells.length := by
      by_contra hout
      simp [listFootprint, List.getElem?_eq_none (not_lt.mp hout)] at hi
    exact hk ((mem_granThreadCells hT valid_vcpu_pairs hcells k).mp ⟨i, hlen, hi⟩)

/-- The same two pairs: each cell holds what its owner alone leaves there. -/
theorem granPairs_run_cells_two :
    ((granPairs (fun st _ _ => (EvTestRes.evPos, st)) (fun _ : Unit => false)
      ⟨64, 6, 11, 16, 1, 0⟩ (initDefL3Conf 0 100 0) (fun _ _ => none) (fun _ _ => none) 1
      [[(0, 0)], [(1, 0)]] (fun _ => ()) (fun _ => ⟨some [1, 2, 3], none⟩)).run [1, 0]).store
        (1, 0) =
      (evsetThreadWorkerGran (fun st _ _ => (EvTestRes.evPos, st)) (fun _ : Unit => false)
        ⟨64, 6, 11, 16, 1, 0⟩ (initDefL3Conf 0 100 0) (fun _ _ => none) (fun _ _ => none) 1
        [(1, 0)] () (fun _ => ⟨some [1, 2, 3], none⟩)).2 (1, 0) := by
  obtain ⟨i, hi, hk, hst⟩ := (granPairs_run_cells _ _ _ _ _ _ _ _ _
    (show 2 * 1 < 2 ^ 32 by norm_num)
    (show granThreadCells 2 none 2 1 = some [[(0, 0)], [(1, 0)]] by decide)
    (show ∀ i, ([[(0, 0)], [(1, 0)]].getD i []).length ≤ [1, 0].count i from
      fun i => by rcases i with _ | _ | i <;> simp)).2.1 (1, 0) (by norm_num) (by norm_num)
  rcases i with _ | _ | i
  · simp at hk
  · exact hst
  · simp at hi

end Run

end EvCache.Para
