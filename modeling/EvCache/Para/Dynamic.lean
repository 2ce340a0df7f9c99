import EvCache.Lib.WorkQueue
import EvCache.Para.GranRun
import EvCache.Evset.Complex

set_option autoImplicit false

/-!
# The offsets of the parallel builders are handed out by one counter

`build_l3_evsets_para` and `build_l3_evsets_para_vtop` (`src/src/evset_para.c`) start thread
pairs that share the LLC candidate complex `l3_cands`, the result complex `l3evset_complex`
and one atomic counter, and nothing else they write. A pair (`evset_thread_worker`,
`vtop_para_worker`) takes the next index with `atomic_fetch_add`, leaves its loop once the
index reaches `max_offsets`, and otherwise builds the eviction sets of the offset
`n = idxs[curr_off_idx]` for each uncertain L2 set `i`, one `build_evsets_at` after another,
on the pool `l3_cands[n][i]`, storing the sets in `l3evset_complex[n][i]`. `evset_thread_worker`
also leaves its loop after any of these builds once `total_runtime_limit` minutes have passed.

The loop is the work queue of `EvCache.Lib.WorkQueue`: its items are the claimed indices, the
work of an item is the pass over its offset, and the footprint of a pass is the row of its
offset. Distinct indices name distinct offsets, so the footprints are disjoint, and the library
gives the whole-run behaviour of the pairs: no two pairs ever work on the same offset; however
the pairs interleave and time out, every offset that no pair is working on holds what a prefix
of its pass, run alone on the initial complexes, leaves there (the whole pass unless its pair
timed out on it), and the offsets no pair has claimed are untouched; once every pair has run
out of offsets, every offset has been built once, whole, from its initial pools.

## Main definitions

* `EvCache.Para.buildOffset` — the body of the pairs' loop for one claimed index.
* `EvCache.Para.offsetSteps`, `EvCache.Para.offsetCells` — its steps, and the cells they touch.
* `EvCache.Para.evsetPairsRun`, `EvCache.Para.vtopPairsRun` — the pairs of the two builders
  after a schedule.

## Main results

* `EvCache.Para.evsetPairs_busy_unique` — no two pairs ever work on the same offset.
* `EvCache.Para.evsetPairs_complex` — what the result complex holds after every schedule, with
  timeouts.
* `EvCache.Para.vtopPairs_cells_of_done` — every offset of the `vTop` builder is built once,
  whole, from the initial complexes.

## Model

A step of a pair is one iteration of its inner loop, the call of `build_evsets_at` for one cell,
as in `EvCache.Para.GranRun`, with no bound on the number of sets (`max_evsets = 0`); the read of
`idxs[curr_off_idx]` is part of the claim, and a read out of bounds is a fault that ends the
pair's work. A timeout is an event a schedule may hold after any iteration: the clock is not
modelled. The counter starts at `0` (`evset_para.c:929`, `1183`). The pinning, the counters
`n_offsets_picked` and `n_pair_init_done` and the printing are left out, and so is the topology
monitor of `build_l3_evsets_para_vtop`, which repins pairs and writes nothing they read.

## References

* `src/src/evset_para.c`, lines 700-861, 863-1055 and 1057-1420.
-/

namespace EvCache.Para

open Interleave WorkQueue CArray

variable {σ : Type}

/-- `idxs` of the two builders (`evset_para.c:914-917`, `1146-1149`): `idxs[i] = i` for each of
the `NUM_OFFSETS` offsets of a page. -/
def offsetIdxs : List ℕ := List.range numOffsets

/-- `total_runtime_limit` (`evset_para.c:17`), in minutes; `0` would turn the timeout off. -/
def totalRuntimeLimit : ℕ := 10

/-- The number of offsets `build_l3_evsets_para_vtop` works on (`evset_para.c:1061-1067`): at
most `NUM_OFFSETS`, and all of them for `0`. -/
def clampOffsets (n_offset : ℕ) : ℕ :=
  let n := if numOffsets < n_offset then numOffsets else n_offset
  if n = 0 then numOffsets else n

lemma clampOffsets_le (n_offset : ℕ) : clampOffsets n_offset ≤ numOffsets := by
  unfold clampOffsets
  dsimp only
  split_ifs <;> omega

section Worker

variable (detailed : σ → ℕ → List ℕ → EvTestRes × σ) (timedOut : σ → Bool) (l3 : CacheInfo)
  (l3_conf : EvBuildConf) (l2evsets : ℕ → ℕ → Option (EvSet ℕ))
  (populated : ℕ → ℕ → Option (List ℕ)) (idxs : List ℕ) (n_unc_l2_sets : ℕ)

/-- The body of the `while` loop of `evset_thread_worker` (`evset_para.c:816-850`) and of
`vtop_para_worker` (`evset_para.c:735-762`) for the claimed index `curr_off_idx`: read the
offset `n = idxs[curr_off_idx]`, then build the cells `(n, i)` of the `n_unc_l2_sets`
uncertain L2 sets in order, with no bound on the number of sets. -/
def buildOffset (curr_off_idx : ℕ) (loc : GranLocal σ) (store : ℕ × ℕ → GranCell) :
    GranLocal σ × (ℕ × ℕ → GranCell) :=
  match CArray.get idxs curr_off_idx with
  | .error e => (.error e, store)
  | .ok n => (List.range n_unc_l2_sets).foldl (fun p i =>
      granIteration detailed timedOut l3 l3_conf l2evsets populated 0 (n, i) p.1 p.2) (loc, store)

/-- The same body as steps of its pair: a fault when `idxs` is read out of bounds, and otherwise
one step per iteration of the inner loop, after each of which `evset_thread_worker` checks its
timeout. -/
def offsetSteps (curr_off_idx : ℕ) : List (Step (GranLocal σ) (ℕ × ℕ) GranCell) :=
  match CArray.get idxs curr_off_idx with
  | .error e => [fun _ store => (.error e, store)]
  | .ok n => (List.range n_unc_l2_sets).map fun i =>
      granIteration detailed timedOut l3 l3_conf l2evsets populated 0 (n, i)

/-- The cells of the complexes the pass over `curr_off_idx` touches: the row of its offset. -/
def offsetCells (curr_off_idx : ℕ) : Set (ℕ × ℕ) :=
  {x | CArray.get idxs curr_off_idx = .ok x.1 ∧ x.2 < n_unc_l2_sets}

/-- A prefix of the steps of a pass, run alone, is the pass over as many L2 sets; for an index
out of bounds the fault comes first. -/
lemma runAlone_offsetSteps_take (curr_off_idx k : ℕ)
    (hk : k ≤ (offsetSteps detailed timedOut l3 l3_conf l2evsets populated idxs n_unc_l2_sets
      curr_off_idx).length)
    (hk₀ : k = (offsetSteps detailed timedOut l3 l3_conf l2evsets populated idxs n_unc_l2_sets
      curr_off_idx).length ∨ 0 < k) (loc : GranLocal σ) (store : ℕ × ℕ → GranCell) :
    runAlone ((offsetSteps detailed timedOut l3 l3_conf l2evsets populated idxs n_unc_l2_sets
        curr_off_idx).take k) loc store =
      buildOffset detailed timedOut l3 l3_conf l2evsets populated idxs k curr_off_idx loc store := by
  unfold offsetSteps buildOffset at *
  cases hget : CArray.get idxs curr_off_idx with
  | error e =>
    -- the single step is the fault
    simp only [hget, List.length_singleton] at hk hk₀ ⊢
    have hk1 : k = 1 := by omega
    subst hk1
    rfl
  | ok n =>
    simp only [hget, List.length_map, List.length_range] at hk ⊢
    rw [← List.map_take, List.take_range, Nat.min_eq_left hk, runAlone_map]

/-- The whole pass run alone. -/
lemma runAlone_offsetSteps (curr_off_idx : ℕ) (loc : GranLocal σ) (store : ℕ × ℕ → GranCell) :
    runAlone (offsetSteps detailed timedOut l3 l3_conf l2evsets populated idxs n_unc_l2_sets
        curr_off_idx) loc store =
      buildOffset detailed timedOut l3 l3_conf l2evsets populated idxs n_unc_l2_sets curr_off_idx
        loc store := by
  unfold offsetSteps buildOffset
  cases CArray.get idxs curr_off_idx with
  | error e => rfl
  | ok n => exact runAlone_map _ _ _ _

/-- Every step of a pass touches the complexes only in the row of its offset. -/
lemma offsetSteps_confined (curr_off_idx : ℕ) :
    ∀ f ∈ offsetSteps detailed timedOut l3 l3_conf l2evsets populated idxs n_unc_l2_sets
      curr_off_idx, Confined (offsetCells idxs n_unc_l2_sets curr_off_idx) f := by
  intro f hf
  unfold offsetSteps at hf
  cases hget : CArray.get idxs curr_off_idx with
  | error e =>
    rw [hget, List.mem_singleton] at hf
    subst hf
    exact ⟨fun _ _ _ _ => rfl, fun _ _ _ hst => ⟨rfl, hst⟩⟩
  | ok n =>
    rw [hget] at hf
    obtain ⟨i, hi, rfl⟩ := List.mem_map.mp hf
    refine (confined_cellStep (n, i) _).mono fun x hx => ?_
    rw [Set.mem_singleton_iff] at hx
    subst hx
    exact ⟨hget, List.mem_range.mp hi⟩

/-- Distinct indices of an array without repeats have disjoint rows. -/
lemma offsetCells_disjoint {idxs : List ℕ} (hidxs : idxs.Nodup) {c d : ℕ} (hcd : c ≠ d) :
    Disjoint (offsetCells idxs n_unc_l2_sets c) (offsetCells idxs n_unc_l2_sets d) := by
  rw [Set.disjoint_left]
  rintro x ⟨hc, -⟩ ⟨hd, -⟩
  obtain ⟨k, hk, hkc, hx⟩ := get_eq_ok hc
  obtain ⟨k', hk', hkd, hx'⟩ := get_eq_ok hd
  have hkk : k = k' := (hidxs.getElem_inj_iff).mp (hx.trans hx'.symm)
  omega

/-- Index `c` of `idxs` is the offset `c`, for each of the `NUM_OFFSETS` offsets. -/
lemma get_offsetIdxs_eq_ok {c n : ℕ} :
    CArray.get offsetIdxs c = .ok n ↔ c < numOffsets ∧ n = c := by
  constructor
  · intro h
    obtain ⟨k, hk, hkc, hx⟩ := get_eq_ok h
    have hck : c = k := by exact_mod_cast hkc
    subst hck
    simp only [offsetIdxs, List.length_range, List.getElem_range] at hk hx
    exact ⟨hk, hx.symm⟩
  · rintro ⟨hc, rfl⟩
    rw [get_of_lt (by simpa [offsetIdxs] using hc)]
    simp [offsetIdxs]

lemma mem_offsetCells_offsetIdxs (c : ℕ) (x : ℕ × ℕ) :
    x ∈ offsetCells offsetIdxs n_unc_l2_sets c ↔
      c < numOffsets ∧ x.1 = c ∧ x.2 < n_unc_l2_sets := by
  simp only [offsetCells, Set.mem_ofPred_eq, get_offsetIdxs_eq_ok, and_assoc]

/-- A pass over an offset of a page has one step for each uncertain L2 set. -/
lemma length_offsetSteps_offsetIdxs {c : ℕ} (hc : c < numOffsets) :
    (offsetSteps detailed timedOut l3 l3_conf l2evsets populated offsetIdxs n_unc_l2_sets
      c).length = n_unc_l2_sets := by
  simp [offsetSteps, get_offsetIdxs_eq_ok.mpr ⟨hc, rfl⟩]

/-- The passes over the indices of `idxs` have pairwise disjoint footprints. -/
lemma offsetCells_pairwise_disjoint (N : ℕ) :
    ∀ c d, c < N → d < N → c ≠ d → Disjoint (offsetCells offsetIdxs n_unc_l2_sets c)
      (offsetCells offsetIdxs n_unc_l2_sets d) :=
  fun _ _ _ _ hcd => offsetCells_disjoint n_unc_l2_sets List.nodup_range hcd

/-- The thread pairs of `build_l3_evsets_para` (`evset_para.c:942-968`) after the events `evs`:
`n_pairs` pairs running `evset_thread_worker`, each from `total_built = 0` and its measurement
state `stOf i`, over the complexes `store`, claiming indices below
`max_offsets = g_config.num_sets`, and timing out (`total_runtime_limit` is not `0`). -/
def evsetPairsRun (n_pairs num_sets : ℕ) (stOf : Fin n_pairs → σ) (store : ℕ × ℕ → GranCell)
    (evs : List (Event (Fin n_pairs))) : Sys (Fin n_pairs) (GranLocal σ) (ℕ × ℕ) GranCell :=
  run num_sets (offsetSteps detailed timedOut l3 l3_conf l2evsets populated offsetIdxs
    n_unc_l2_sets) (totalRuntimeLimit != 0) (init (fun i => .ok (0, stOf i)) store) evs

/-- The thread pairs of `build_l3_evsets_para_vtop` (`evset_para.c:1183-1230`) after the events
`evs`: `n_pairs` pairs running `vtop_para_worker`, which has no timeout, with
`max_offsets = n_offset` after the builder's clamp. -/
def vtopPairsRun (n_pairs n_offset : ℕ) (stOf : Fin n_pairs → σ) (store : ℕ × ℕ → GranCell)
    (evs : List (Event (Fin n_pairs))) : Sys (Fin n_pairs) (GranLocal σ) (ℕ × ℕ) GranCell :=
  run (clampOffsets n_offset) (offsetSteps detailed timedOut l3 l3_conf l2evsets populated
    offsetIdxs n_unc_l2_sets) false (init (fun i => .ok (0, stOf i)) store) evs

end Worker

section Pairs

variable (detailed : σ → ℕ → List ℕ → EvTestRes × σ) (timedOut : σ → Bool) (l3 : CacheInfo)
  (l3_conf : EvBuildConf) (l2evsets : ℕ → ℕ → Option (EvSet ℕ))
  (populated : ℕ → ℕ → Option (List ℕ)) (n_unc_l2_sets : ℕ) {n_pairs : ℕ}
  (stOf : Fin n_pairs → σ) (store : ℕ × ℕ → GranCell) (evs : List (Event (Fin n_pairs)))

/-- Every schedule of the pairs of `build_l3_evsets_para` keeps the work queue's invariant. -/
lemma evsetPairs_inv (num_sets : ℕ) :
    Inv num_sets (offsetSteps detailed timedOut l3 l3_conf l2evsets populated offsetIdxs
        n_unc_l2_sets) (offsetCells offsetIdxs n_unc_l2_sets) store
      (evsetPairsRun detailed timedOut l3 l3_conf l2evsets populated n_unc_l2_sets n_pairs
        num_sets stOf store evs) :=
  run_inv (fun c _ => offsetSteps_confined detailed timedOut l3 l3_conf l2evsets populated
      offsetIdxs n_unc_l2_sets c) (offsetCells_pairwise_disjoint n_unc_l2_sets num_sets) _ _ evs

/-- **No two pairs ever work on the same offset.** In every state the pairs of
`build_l3_evsets_para` reach, however they interleave and time out, two pairs inside the loop
of one claimed index are the same pair.

**Proof sketch.** The record of the claims names one pair for each index
(`WorkQueue.run_busy_unique`). -/
theorem evsetPairs_busy_unique (num_sets : ℕ) {i j : Fin n_pairs} {c k k' : ℕ}
    (hi : (evsetPairsRun detailed timedOut l3 l3_conf l2evsets populated n_unc_l2_sets n_pairs
      num_sets stOf store evs).pc i = .busy c k)
    (hj : (evsetPairsRun detailed timedOut l3 l3_conf l2evsets populated n_unc_l2_sets n_pairs
      num_sets stOf store evs).pc j = .busy c k') : i = j :=
  run_busy_unique (fun c _ => offsetSteps_confined detailed timedOut l3 l3_conf l2evsets populated
      offsetIdxs n_unc_l2_sets c) (offsetCells_pairwise_disjoint n_unc_l2_sets num_sets) _ _ evs
    hi hj

/-- Two pairs each take an offset: the first pair is on offset `0`. -/
theorem evsetPairs_busy_unique_two :
    (evsetPairsRun (fun st _ _ => (EvTestRes.evPos, st)) (fun _ : Unit => false)
        ⟨64, 6, 11, 16, 1, 0⟩ (initDefL3Conf 0 100 0) (fun _ _ => none) (fun _ _ => none) 1 2 2
        (fun _ => ()) (fun _ => ⟨some [1, 2, 3], none⟩) [.step 0, .step 1]).pc 0 = .busy 0 0 ∧
      (0 : Fin 2) = 0 := by
  have h : (evsetPairsRun (fun st _ _ => (EvTestRes.evPos, st)) (fun _ : Unit => false)
      ⟨64, 6, 11, 16, 1, 0⟩ (initDefL3Conf 0 100 0) (fun _ _ => none) (fun _ _ => none) 1 2 2
      (fun _ => ()) (fun _ => ⟨some [1, 2, 3], none⟩) [.step 0, .step 1]).pc 0 = .busy 0 0 := by
    decide
  exact ⟨h, evsetPairs_busy_unique (fun st _ _ => (EvTestRes.evPos, st)) (fun _ : Unit => false)
    ⟨64, 6, 11, 16, 1, 0⟩ (initDefL3Conf 0 100 0) (fun _ _ => none) (fun _ _ => none) 1
    (fun _ => ()) (fun _ => ⟨some [1, 2, 3], none⟩) [.step 0, .step 1] 2 h h⟩

/-- **What the result complex holds after every schedule**, with timeouts. In every state the
pairs of `build_l3_evsets_para` reach: every offset `c < min(num_sets, NUM_OFFSETS)` they have
claimed and no pair is working on has its row as a pass over its first `k` L2 sets leaves it,
run alone on the initial complexes from the local state of the pair that claimed it, where
`k` is all of them unless that pair timed out on `c`; the rows of the offsets not yet claimed
are untouched, and so is every cell outside the rows the pairs build.

**Proof sketch.** The invariant of the work queue, read at the row of `c`
(`runAlone_offsetSteps_take`). -/
theorem evsetPairs_complex (num_sets : ℕ) :
    (∀ c < num_sets, c < numOffsets →
      c < (evsetPairsRun detailed timedOut l3 l3_conf l2evsets populated n_unc_l2_sets n_pairs
        num_sets stOf store evs).next →
      (∀ i k, (evsetPairsRun detailed timedOut l3 l3_conf l2evsets populated n_unc_l2_sets n_pairs
        num_sets stOf store evs).pc i ≠ .busy c k) →
      ∃ i l₀, (evsetPairsRun detailed timedOut l3 l3_conf l2evsets populated n_unc_l2_sets n_pairs
          num_sets stOf store evs).claims[c]? = some (i, l₀) ∧
        ∃ k ≤ n_unc_l2_sets, (k = n_unc_l2_sets ∨ 0 < k ∧
          (evsetPairsRun detailed timedOut l3 l3_conf l2evsets populated n_unc_l2_sets n_pairs
            num_sets stOf store evs).pc i = .done (some c)) ∧
        ∀ j < n_unc_l2_sets, (evsetPairsRun detailed timedOut l3 l3_conf l2evsets populated
            n_unc_l2_sets n_pairs num_sets stOf store evs).store (c, j) =
          (buildOffset detailed timedOut l3 l3_conf l2evsets populated offsetIdxs k c l₀
            store).2 (c, j)) ∧
    (∀ c < num_sets, (evsetPairsRun detailed timedOut l3 l3_conf l2evsets populated n_unc_l2_sets
        n_pairs num_sets stOf store evs).next ≤ c → ∀ j < n_unc_l2_sets,
      (evsetPairsRun detailed timedOut l3 l3_conf l2evsets populated n_unc_l2_sets n_pairs
        num_sets stOf store evs).store (c, j) = store (c, j)) ∧
    (∀ x : ℕ × ℕ, min num_sets numOffsets ≤ x.1 ∨ n_unc_l2_sets ≤ x.2 →
      (evsetPairsRun detailed timedOut l3 l3_conf l2evsets populated n_unc_l2_sets n_pairs
        num_sets stOf store evs).store x = store x) := by
  have hinv := evsetPairs_inv detailed timedOut l3 l3_conf l2evsets populated n_unc_l2_sets stOf
    store evs num_sets
  refine ⟨fun c hc hcn hcnext hidle => ?_, fun c hc hle j hj => ?_, fun x hx => ?_⟩
  · have hlen := length_offsetSteps_offsetIdxs detailed timedOut l3 l3_conf l2evsets populated
      n_unc_l2_sets hcn
    obtain ⟨i, l₀, hcl, hkl, hst⟩ := hinv.claimed c hc hcnext
    obtain ⟨i', l₀', hcl', hk⟩ := hinv.idle c hc hcnext hidle
    obtain ⟨rfl, -⟩ := Prod.mk.inj (Option.some.inj (hcl'.symm.trans hcl))
    rw [hlen] at hkl hk
    refine ⟨i', l₀, hcl, _, hkl, hk, fun j hj => ?_⟩
    rw [hst (c, j) ((mem_offsetCells_offsetIdxs n_unc_l2_sets c _).mpr ⟨hcn, rfl, hj⟩),
      runAlone_offsetSteps_take _ _ _ _ _ _ _ _ _ _ (by rwa [hlen])
        (by rw [hlen]; exact hk.imp id And.left)]
  · by_cases hcn : c < numOffsets
    · exact hinv.fresh c hc hle (c, j)
        ((mem_offsetCells_offsetIdxs n_unc_l2_sets c _).mpr ⟨hcn, rfl, hj⟩)
    · -- an index past the offsets has an empty row, and no row holds its cells
      refine hinv.outside (c, j) fun d _ hx => ?_
      obtain ⟨hdn, rfl, -⟩ := (mem_offsetCells_offsetIdxs n_unc_l2_sets d _).mp hx
      exact hcn hdn
  · refine hinv.outside x fun d hd hx' => ?_
    obtain ⟨hdn, hx₁, hx₂⟩ := (mem_offsetCells_offsetIdxs n_unc_l2_sets d _).mp hx'
    omega

/-- **Every offset of `build_l3_evsets_para_vtop` is built once.** After every schedule at whose
end every pair has returned, which is what the builder's `pthread_join` waits for, each offset
`c` below the clamped `n_offset` has its row as the whole pass over it leaves it, run alone on
the initial complexes from the local state of the pair that claimed it, and every other cell is
as it was.

**Proof sketch.** `vtop_para_worker` has no timeout, so a pair that returned ran out of
indices (`WorkQueue.run_store_of_done`); the clamp keeps every index inside `idxs`. -/
theorem vtopPairs_cells_of_done (n_offset : ℕ) (hpairs : 0 < n_pairs)
    (hdone : ∀ i, ∃ a, (vtopPairsRun detailed timedOut l3 l3_conf l2evsets populated n_unc_l2_sets
      n_pairs n_offset stOf store evs).pc i = .done a) :
    (∀ c < clampOffsets n_offset, ∃ i l₀, (vtopPairsRun detailed timedOut l3 l3_conf l2evsets
        populated n_unc_l2_sets n_pairs n_offset stOf store evs).claims[c]? = some (i, l₀) ∧
      ∀ j < n_unc_l2_sets, (vtopPairsRun detailed timedOut l3 l3_conf l2evsets populated
          n_unc_l2_sets n_pairs n_offset stOf store evs).store (c, j) =
        (buildOffset detailed timedOut l3 l3_conf l2evsets populated offsetIdxs n_unc_l2_sets c l₀
          store).2 (c, j)) ∧
    ∀ x : ℕ × ℕ, clampOffsets n_offset ≤ x.1 ∨ n_unc_l2_sets ≤ x.2 →
      (vtopPairsRun detailed timedOut l3 l3_conf l2evsets populated n_unc_l2_sets n_pairs n_offset
        stOf store evs).store x = store x := by
  have : Nonempty (Fin n_pairs) := ⟨⟨0, hpairs⟩⟩
  obtain ⟨hcells, hout⟩ := run_store_of_done (fun c _ => offsetSteps_confined detailed timedOut
    l3 l3_conf l2evsets populated offsetIdxs n_unc_l2_sets c)
    (offsetCells_pairwise_disjoint n_unc_l2_sets (clampOffsets n_offset)) _ evs hdone
  refine ⟨fun c hc => ?_, fun x hx => hout x fun d hd hx' => ?_⟩
  · obtain ⟨i, l₀, hcl, hst⟩ := hcells c hc
    refine ⟨i, l₀, hcl, fun j hj => ?_⟩
    refine (hst (c, j) ((mem_offsetCells_offsetIdxs n_unc_l2_sets c _).mpr
      ⟨lt_of_lt_of_le hc (clampOffsets_le n_offset), rfl, hj⟩)).trans ?_
    rw [runAlone_offsetSteps]
  · obtain ⟨hdn, hx₁, hx₂⟩ := (mem_offsetCells_offsetIdxs n_unc_l2_sets d _).mp hx'
    omega

/-- One pair on one offset of one L2 set: it claims the offset, builds its cell, and finds the
counter past the last offset. -/
theorem vtopPairs_cells_of_done_one :
    ∃ i l₀, (vtopPairsRun (fun st _ _ => (EvTestRes.evPos, st)) (fun _ : Unit => false)
        ⟨64, 6, 11, 16, 1, 0⟩ (initDefL3Conf 0 100 0) (fun _ _ => none) (fun _ _ => none) 1 1 1
        (fun _ => ()) (fun _ => ⟨some [1, 2, 3], none⟩)
        [.step 0, .step 0, .step 0, .step 0]).claims[0]? = some (i, l₀) ∧
      ∀ j < 1, (vtopPairsRun (fun st _ _ => (EvTestRes.evPos, st)) (fun _ : Unit => false)
          ⟨64, 6, 11, 16, 1, 0⟩ (initDefL3Conf 0 100 0) (fun _ _ => none) (fun _ _ => none) 1 1 1
          (fun _ => ()) (fun _ => ⟨some [1, 2, 3], none⟩)
          [.step 0, .step 0, .step 0, .step 0]).store (0, j) =
        (buildOffset (fun st _ _ => (EvTestRes.evPos, st)) (fun _ : Unit => false)
          ⟨64, 6, 11, 16, 1, 0⟩ (initDefL3Conf 0 100 0) (fun _ _ => none) (fun _ _ => none)
          offsetIdxs 1 0 l₀ (fun _ => ⟨some [1, 2, 3], none⟩)).2 (0, j) :=
  (vtopPairs_cells_of_done (fun st _ _ => (EvTestRes.evPos, st)) (fun _ : Unit => false)
    ⟨64, 6, 11, 16, 1, 0⟩ (initDefL3Conf 0 100 0) (fun _ _ => none) (fun _ _ => none) 1
    (fun _ => ()) (fun _ => ⟨some [1, 2, 3], none⟩) [.step 0, .step 0, .step 0, .step 0] 1
    (by decide) fun i => ⟨none, by rw [Fin.fin_one_eq_zero i]; decide⟩).1 0 (by decide)

end Pairs

end EvCache.Para
