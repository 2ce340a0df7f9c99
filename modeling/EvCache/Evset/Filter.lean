import EvCache.Lib.Loop
import EvCache.Lib.CArray
import EvCache.Config
import Mathlib

set_option autoImplicit false

/-!
# `evcands_filter_batch`: filtering the candidates by an L2 set

`evcands_populate` keeps of the pages of the buffer only the lines that fall into the L2 set
of the filter eviction set. `evcands_filter_batch` times them in batches of `n_ways - 1`
lines (`n_ways` for two or fewer ways): a trial accesses the batch, traverses the filter set
and reloads every line of the batch, counting the reloads over the latency threshold. A line
counted over the threshold in more than `upp_bnd` trials is swapped to the front.

The swaps happen while the batch is still being walked, so the line swapped out of the front
can land inside the batch. It lands only at a position already walked: the front never
overtakes the walk. So the votes of a batch are those of its original lines, and the filter is
a stable partition of the candidates by the votes of their batches.

## Main definitions

* `EvCache.batchTrials` — the trials of one batch and the counts they leave.
* `EvCache.evcandsFilterBatch` — `evcands_filter_batch`.
* `EvCache.batchesOf`, `EvCache.filterVotes` — the specification: the consecutive batches of
  the candidates, and the lines their votes select, in order.

## Main results

* `EvCache.FilterInv.step` — one pass of the batch loop keeps the invariant.
* `EvCache.evcandsFilterBatch_stable` — the batches cover the candidates once, and the call
  moves exactly the lines their votes select, in order, to the front, permuting the rest.

## Model

A trial is a measurement of the hardware: `trial st lines batch` gives the latencies of the
reloads of the batch after it is accessed and the filter set `lines` traversed, and the state
after. Every sequence of latencies is such a function, so the results hold for every outcome
of the timing. `conf` is `def_l2_build_conf`. With no way, `batch_sz` is `0` and the loop
never ends when there are candidates; the model runs the loop with `total_cands + 1` passes of
fuel, which is then spent. The allocation of `otcs` succeeds.

## References

* `src/src/evset.c`, lines 144-217 and 565-611.
-/

namespace EvCache

open CArray FuelLoop

variable {σ α : Type}

/-! ## Model -/

/-- `lat > conf->lat_thresh`: the `i64` threshold is compared as a `u64`. -/
def overThresh (lat_thresh : ℤ) (lat : ℕ) : Bool := (lat_thresh % 2 ^ 64).toNat < lat

/-- The trials of a batch (`evset.c:590-600`): `otcs[0..cur_batch_sz)` is zeroed, and every
trial adds one to the count of each line reloaded over the threshold. -/
def batchTrials (trial : σ → List α → List α → List ℕ × σ) (lat_thresh : ℤ)
    (lines batch : List α) (trials : ℕ) (st : σ) : List ℕ × σ :=
  (List.range trials).foldl
    (fun acc _ =>
      let r := trial acc.2 lines batch
      (acc.1.mapIdx fun i otc => otc + if overThresh lat_thresh (r.1.getD i 0) then 1 else 0,
        r.2))
    (List.replicate batch.length 0, st)

/-- `batch_sz`: `n_ways - 1` lines, or `n_ways` for two or fewer ways (`evset.c:575-576`). -/
def batchSize (n_ways : ℕ) : ℕ := if 2 < n_ways then n_ways - 1 else n_ways

/-- The loop variables of `evcands_filter_batch`: the array, the start `s` of the batch, the
front `n_pos`, and the state of the hardware. -/
structure BatchState (σ α : Type) where
  addrs : List α
  s : ℕ
  n_pos : ℕ
  st : σ

/-- One pass of the batch loop (`evset.c:588-608`): time the batch `addrs[s..s + cur)`, then
swap every line counted over `upp_bnd` to the front. -/
def batchBody (trial : σ → List α → List α → List ℕ × σ) (conf : EvBuildConf) (lines : List α)
    (batch_sz total_cands : ℕ) (b : BatchState σ α) : Except Fault (Next (BatchState σ α)) := do
  let cur_batch_sz := min batch_sz (total_cands - b.s)
  -- `access_array(&addrs[s], cur_batch_sz)` and the reloads of `addrs[s + i]`
  let batch ← slice b.addrs b.s (b.s + cur_batch_sz : ℕ)
  let r := batchTrials trial conf.lat_thresh lines batch conf.trials b.st
  -- `if (otcs[i] > conf->upp_bnd) { _swap(addrs[n_pos], addrs[s + i]); n_pos += 1; }`
  let acc ← (List.range cur_batch_sz).foldlM
    (keepStep (fun i => decide (conf.upp_bnd < r.1.getD i 0)) b.s) (b.addrs, b.n_pos)
  pure (.cont ⟨acc.1, b.s + batch_sz, acc.2, r.2⟩)

/-- `evcands_filter_batch(addrs, total_cands, filtered_count, filter_ev, conf)`
(`evset.c:565`): the array afterwards, `*filtered_count`, and the state of the hardware.
Without a filter set the call only prints an error. -/
def evcandsFilterBatch (trial : σ → List α → List α → List ℕ × σ) (addrs : List α)
    (total_cands filtered_count : ℕ) (filter_ev : Option (EvSet α)) (conf : EvBuildConf)
    (st : σ) : Except Fault (List α × ℕ × σ) :=
  match filter_ev with
  | none => pure (addrs, filtered_count, st)
  | some ev => do
    let b ← run (fun b => decide (b.s < total_cands))
      (batchBody trial conf ev.lines (batchSize ev.target_cache.n_ways) total_cands) .outOfFuel
      (total_cands + 1) ⟨addrs, 0, 0, st⟩
    pure (b.addrs, b.n_pos, b.st)

/-! ## Specification -/

/-- The consecutive batches `l[k·bs .. (k + 1)·bs)` of `l`. -/
def batchesOf (bs : ℕ) (l : List α) : List (List α) :=
  (List.range ((l.length + bs - 1) / bs)).map fun k => (l.drop (k * bs)).take bs

/-- The lines of a batch whose count exceeds `upp_bnd`, in order. -/
def batchPositives (upp_bnd : ℕ) (batch : List α) (otcs : List ℕ) : List α :=
  kept (fun i => decide (upp_bnd < otcs.getD i 0)) batch 0 batch.length

/-- The lines the votes of the batches select, in order, and the state after their trials:
each batch is timed from the state the previous one left. -/
def filterVotes (trial : σ → List α → List α → List ℕ × σ) (conf : EvBuildConf)
    (lines : List α) : List (List α) → σ → List α × σ
  | [], st => ([], st)
  | batch :: rest, st =>
    let r := batchTrials trial conf.lat_thresh lines batch conf.trials st
    let v := filterVotes trial conf lines rest r.2
    (batchPositives conf.upp_bnd batch r.1 ++ v.1, v.2)

section Spec

variable (trial : σ → List α → List α → List ℕ × σ) (conf : EvBuildConf) (lines : List α)

lemma filterVotes_append (l₁ l₂ : List (List α)) (st : σ) :
    filterVotes trial conf lines (l₁ ++ l₂) st =
      ((filterVotes trial conf lines l₁ st).1 ++
          (filterVotes trial conf lines l₂ (filterVotes trial conf lines l₁ st).2).1,
        (filterVotes trial conf lines l₂ (filterVotes trial conf lines l₁ st).2).2) := by
  induction l₁ generalizing st with
  | nil => rfl
  | cons batch rest ih => simp [filterVotes, ih]

/-- A last batch adds its positives behind those of the batches before it. -/
lemma filterVotes_concat (l : List (List α)) (batch : List α) (st : σ) :
    filterVotes trial conf lines (l ++ [batch]) st =
      ((filterVotes trial conf lines l st).1 ++ batchPositives conf.upp_bnd batch
          (batchTrials trial conf.lat_thresh lines batch conf.trials
            (filterVotes trial conf lines l st).2).1,
        (batchTrials trial conf.lat_thresh lines batch conf.trials
          (filterVotes trial conf lines l st).2).2) := by
  simp [filterVotes_append, filterVotes]

/-- **The counts of a steady hardware.** When every trial reloads the batch with the same
latencies `lats`, each line is counted in every trial or in none. -/
lemma batchTrials_of_steady (lat_thresh : ℤ) (batch : List α) (lats : List ℕ)
    (hlats : ∀ st, (trial st lines batch).1 = lats) (trials : ℕ) (st : σ) :
    (batchTrials trial lat_thresh lines batch trials st).1 =
      (List.range batch.length).map fun i =>
        trials * if overThresh lat_thresh (lats.getD i 0) then 1 else 0 := by
  unfold batchTrials
  induction trials with
  | zero => simp
  | succ k ih =>
    rw [foldl_range_succ]
    dsimp only
    rw [hlats, ih]
    refine List.ext_getElem (by simp) fun i _ _ => ?_
    simp only [List.getElem_mapIdx, List.getElem_map, List.getElem_range]
    ring

end Spec

lemma batchSize_pos {n_ways : ℕ} (h : 1 ≤ n_ways) : 0 < batchSize n_ways := by
  unfold batchSize
  split_ifs <;> omega

section Batches

variable {bs : ℕ} (l : List α)

lemma length_batchesOf : (batchesOf bs l).length = (l.length + bs - 1) / bs := by
  simp [batchesOf]

lemma getElem_batchesOf {k : ℕ} (hk : k < (batchesOf bs l).length) :
    (batchesOf bs l)[k] = (l.drop (k * bs)).take bs := by
  simp [batchesOf]

lemma take_succ_batchesOf {k : ℕ} (hk : k < (batchesOf bs l).length) :
    (batchesOf bs l).take (k + 1) = (batchesOf bs l).take k ++ [(l.drop (k * bs)).take bs] := by
  rw [List.take_add_one, List.getElem?_eq_getElem hk, getElem_batchesOf l hk]
  rfl

/-- The batch `k` holds `min bs (|l| - k·bs)` lines: `cur_batch_sz` at `s = k·bs`. -/
lemma length_getElem_batchesOf {k : ℕ} (hk : k < (batchesOf bs l).length) :
    (batchesOf bs l)[k].length = min bs (l.length - k * bs) := by
  rw [getElem_batchesOf l hk, List.length_take, List.length_drop]

/-- The batches cover `l` once, in order. -/
lemma flatten_batchesOf (hbs : 0 < bs) : (batchesOf bs l).flatten = l := by
  -- the first `m` batches are the first `m·bs` lines
  have hpre : ∀ m, ((List.range m).map fun k => (l.drop (k * bs)).take bs).flatten =
      l.take (m * bs) := by
    intro m
    induction m with
    | zero => simp
    | succ m ih =>
      rw [List.range_succ, List.map_append, List.flatten_append, ih, List.map_singleton,
        List.flatten_singleton, ← List.take_add, Nat.succ_mul]
  rw [batchesOf, hpre, List.take_of_length_le]
  -- `⌈|l| / bs⌉ · bs ≥ |l|`
  have h := Nat.div_add_mod (l.length + bs - 1) bs
  have hm := Nat.mod_lt (l.length + bs - 1) hbs
  rw [Nat.mul_comm] at h
  omega

end Batches

/-! ## The batch loop -/

section Loop

variable (trial : σ → List α → List α → List ℕ × σ) (conf : EvBuildConf) (lines : List α)
  (addrs : List α) (total bs : ℕ) (st : σ)

/-- The batch loop at the head of its pass `k`: the batch starts at `k·bs`, the array permutes
`addrs` on the lines walked, the front holds the lines the votes of the first `k` batches
select, and the hardware is where their trials left it. -/
structure FilterInv (k : ℕ) (b : BatchState σ α) : Prop where
  s_eq : b.s = k * bs
  perm : PermOn (min (k * bs) total) b.addrs addrs
  votes : filterVotes trial conf lines ((batchesOf bs (addrs.take total)).take k) st =
    (b.addrs.take b.n_pos, b.st)
  n_pos_le : b.n_pos ≤ min (k * bs) total

variable {addrs total bs st}

lemma filterInv_zero : FilterInv trial conf lines addrs total bs st 0 ⟨addrs, 0, 0, st⟩ :=
  ⟨by simp, by simpa using PermOn.refl 0 addrs, by simp [filterVotes], by simp⟩

/-- The batch of pass `k` is the batch `k` of the candidates: the lines from `k·bs` on are
still the original ones. -/
lemma FilterInv.window {k : ℕ} {b : BatchState σ α} (h : FilterInv trial conf lines addrs total bs st k b)
    (hs : b.s < total) :
    (b.addrs.take (b.s + min bs (total - b.s))).drop b.s = ((addrs.take total).drop (k * bs)).take bs := by
  have hdrop : b.addrs.drop b.s = addrs.drop b.s := by
    have := h.perm.2.2
    rwa [Nat.min_eq_left (by rw [← h.s_eq]; omega), ← h.s_eq] at this
  rw [List.drop_take, Nat.add_sub_cancel_left, hdrop, List.drop_take, List.take_take, ← h.s_eq,
    Nat.min_comm]

/-- **One pass of the batch loop** keeps the invariant and moves the batch start on.

**Proof sketch.** The batch timed is the batch `k` of the candidates (`FilterInv.window`); the
compaction of its positives (`foldlM_keepStep`) appends them to the front and permutes the
lines walked, and its trials are those `filterVotes` runs for the batch. -/
lemma FilterInv.step (hbs : 0 < bs) (htotal : total ≤ addrs.length) {k : ℕ}
    {b : BatchState σ α} (h : FilterInv trial conf lines addrs total bs st k b) (hs : b.s < total) :
    ∃ b', batchBody trial conf lines bs total b = .ok (.cont b') ∧
      FilterInv trial conf lines addrs total bs st (k + 1) b' ∧ total - b'.s < total - b.s := by
  have hs_eq := h.s_eq
  have hpos := h.n_pos_le
  have hks : k * bs < total := hs_eq ▸ hs
  have hlen : b.addrs.length = addrs.length := h.perm.1
  have hmin : min (k * bs) total = k * bs := Nat.min_eq_left hks.le
  have hmin' : min ((k + 1) * bs) total = b.s + min bs (total - b.s) := by
    rw [Nat.succ_mul, h.s_eq]
    omega
  have hkn : k < (batchesOf bs (addrs.take total)).length := by
    rw [length_batchesOf, List.length_take, Nat.min_eq_left htotal, Nat.lt_iff_add_one_le,
      Nat.le_div_iff_mul_le hbs, Nat.succ_mul]
    omega
  -- the trials of the batch, and the compaction of its positives
  set batch := ((addrs.take total).drop (k * bs)).take bs with hbatch
  set r := batchTrials trial conf.lat_thresh lines batch conf.trials b.st with hr
  have hcur : batch.length = min bs (total - b.s) := by
    rw [hbatch, List.length_take, List.length_drop, List.length_take, Nat.min_eq_left htotal,
      ← h.s_eq]
  obtain ⟨a', hrun, hfront, hperm⟩ := foldlM_keepStep
    (fun i => decide (conf.upp_bnd < r.1.getD i 0)) (min bs (total - b.s))
    (show b.n_pos ≤ b.s by omega)
    (show b.s + min bs (total - b.s) ≤ b.addrs.length by omega)
  have hkept : kept (fun i => decide (conf.upp_bnd < r.1.getD i 0)) b.addrs b.s
      (min bs (total - b.s)) = batchPositives conf.upp_bnd batch r.1 := by
    rw [kept_take_drop, h.window trial conf lines hs, ← hbatch, batchPositives, hcur]
  have hk := length_kept_le (fun i => decide (conf.upp_bnd < r.1.getD i 0)) b.addrs b.s
    (min bs (total - b.s))
  refine ⟨⟨a', b.s + bs, b.n_pos + (kept (fun i => decide (conf.upp_bnd < r.1.getD i 0)) b.addrs
    b.s (min bs (total - b.s))).length, r.2⟩, ?_, ⟨?_, ?_, ?_, ?_⟩, ?_⟩
  · rw [batchBody]
    simp only [slice_of_le (show b.s ≤ b.s + min bs (total - b.s) by omega)
      (show b.s + min bs (total - b.s) ≤ b.addrs.length by omega), ok_bind]
    rw [h.window trial conf lines hs, ← hbatch, ← hr, hrun, ok_bind]
    rfl
  · show b.s + bs = (k + 1) * bs
    rw [hs_eq, Nat.succ_mul]
  · rw [hmin']
    exact hperm.trans (h.perm.mono (by omega))
  · rw [take_succ_batchesOf _ hkn, filterVotes_concat, h.votes, hfront, hkept]
  · rw [hmin']
    dsimp only
    omega
  · dsimp only
    omega

/-- When the loop stops, every batch has been filtered. -/
lemma FilterInv.exit (hbs : 0 < bs) {k : ℕ} {b : BatchState σ α}
    (h : FilterInv trial conf lines addrs total bs st k b) (hs : total ≤ b.s) :
    PermOn total b.addrs addrs ∧
      filterVotes trial conf lines (batchesOf bs (addrs.take total)) st =
        (b.addrs.take b.n_pos, b.st) := by
  have hks : total ≤ k * bs := h.s_eq ▸ hs
  have hall : (batchesOf bs (addrs.take total)).length ≤ k := by
    rw [length_batchesOf]
    apply Nat.le_of_lt_succ
    rw [Nat.div_lt_iff_lt_mul hbs, Nat.succ_mul]
    have := (List.length_take_le total addrs)
    omega
  have hperm := h.perm
  rw [Nat.min_eq_right hks] at hperm
  have hv := h.votes
  rw [List.take_of_length_le hall] at hv
  exact ⟨hperm, hv⟩

end Loop

/-- The run of `evcands_filter_batch` with a filter set of at least one way: it returns the
lines the votes of the batches select at the front, their number, and the state after the
trials, permuting the candidates.

**Proof sketch.** `FilterInv` holds at the start and every pass keeps it (`FilterInv.step`),
lowering `total_cands - s`; so the loop returns (`FuelLoop.run_spec`), and at its end every
batch has been filtered (`FilterInv.exit`). -/
lemma evcandsFilterBatch_eq (trial : σ → List α → List α → List ℕ × σ) (conf : EvBuildConf)
    (ev : EvSet α) (hways : 1 ≤ ev.target_cache.n_ways) {addrs : List α} {total_cands : ℕ}
    (htotal : total_cands ≤ addrs.length) (filtered_count : ℕ) (st : σ) :
    ∃ addrs', evcandsFilterBatch trial addrs total_cands filtered_count (some ev) conf st =
        .ok (addrs', (filterVotes trial conf ev.lines
          (batchesOf (batchSize ev.target_cache.n_ways) (addrs.take total_cands)) st).1.length,
          (filterVotes trial conf ev.lines
            (batchesOf (batchSize ev.target_cache.n_ways) (addrs.take total_cands)) st).2) ∧
      addrs'.take (filterVotes trial conf ev.lines
          (batchesOf (batchSize ev.target_cache.n_ways) (addrs.take total_cands)) st).1.length =
        (filterVotes trial conf ev.lines
          (batchesOf (batchSize ev.target_cache.n_ways) (addrs.take total_cands)) st).1 ∧
      PermOn total_cands addrs' addrs := by
  have hbs := batchSize_pos hways
  obtain ⟨b, hrun, k, hinv, hs⟩ := run_spec (fun b => decide (b.s < total_cands))
    (batchBody trial conf ev.lines (batchSize ev.target_cache.n_ways) total_cands) .outOfFuel
    (fun b => ∃ k, FilterInv trial conf ev.lines addrs total_cands
      (batchSize ev.target_cache.n_ways) st k b)
    (fun b => ∃ k, FilterInv trial conf ev.lines addrs total_cands
      (batchSize ev.target_cache.n_ways) st k b ∧ total_cands ≤ b.s)
    (fun b => total_cands - b.s)
    (fun b ⟨k, hk⟩ hg => by
      obtain ⟨b', hb', hk', hμ⟩ := hk.step trial conf ev.lines hbs htotal (by simpa using hg)
      exact .inl ⟨b', hb', ⟨k + 1, hk'⟩, hμ⟩)
    (fun b ⟨k, hk⟩ hg => ⟨k, hk, by simpa using hg⟩)
    (total_cands + 1) ⟨addrs, 0, 0, st⟩ ⟨0, filterInv_zero trial conf ev.lines⟩ (by simp)
  obtain ⟨hperm, hvotes⟩ := hinv.exit trial conf ev.lines hbs hs
  have hn : b.n_pos ≤ b.addrs.length := by
    have := hinv.n_pos_le
    have := hperm.1
    omega
  rw [hvotes, List.length_take, Nat.min_eq_left hn]
  refine ⟨b.addrs, ?_, rfl, hperm⟩
  simp only [evcandsFilterBatch, hrun, ok_bind]
  rfl

/-- **`evcands_filter_batch` is a stable partition by the votes.** For every trial
measurement, every configuration and every filter set with at least one way, on an array of
at least `total_cands` lines: the batches of `batch_sz` lines, the last one shorter, cover the
candidates once, in order; the call returns, its count is the number of lines whose count in
the trials of their batch exceeds `upp_bnd`, those lines stand at the front in their original
order, and the candidates are permuted, the rest of the array untouched. -/
theorem evcandsFilterBatch_stable (trial : σ → List α → List α → List ℕ × σ)
    (conf : EvBuildConf) (ev : EvSet α) (hways : 1 ≤ ev.target_cache.n_ways) {addrs : List α}
    {total_cands : ℕ} (htotal : total_cands ≤ addrs.length) (filtered_count : ℕ) (st : σ) :
    let batch_sz := batchSize ev.target_cache.n_ways
    let batches := batchesOf batch_sz (addrs.take total_cands)
    let votes := filterVotes trial conf ev.lines batches st
    batches.flatten = addrs.take total_cands ∧
      (∀ k (hk : k < batches.length),
        batches[k].length = min batch_sz (total_cands - k * batch_sz)) ∧
      ∃ addrs', evcandsFilterBatch trial addrs total_cands filtered_count (some ev) conf st =
          .ok (addrs', votes.1.length, votes.2) ∧
        addrs'.take votes.1.length = votes.1 ∧ PermOn total_cands addrs' addrs := by
  intro batch_sz batches votes
  have hbs : 0 < batch_sz := batchSize_pos hways
  refine ⟨flatten_batchesOf _ hbs, fun k hk => ?_,
    evcandsFilterBatch_eq trial conf ev hways htotal filtered_count st⟩
  rw [length_getElem_batchesOf _ hk, List.length_take, Nat.min_eq_left htotal]

/-- Odd lines fast and even lines slow in every trial, four ways: batches of three, and the
even lines `2, 4, 6` come to the front. -/
theorem evcandsFilterBatch_stable_parity :
    ∃ addrs', evcandsFilterBatch (fun _ _ batch => (batch.map fun a => if a % 2 = 0 then 500 else 10, ()))
        [1, 2, 3, 4, 5, 6, 7] 7 0 (some ⟨[], 0, 0, 0, initDefL2Conf 0 100, ⟨64, 6, 10, 4, 1, 4⟩⟩)
        (initDefL2Conf 0 100) () = .ok (addrs', 3, ()) ∧
      addrs'.take 3 = [2, 4, 6] ∧ PermOn 7 addrs' [1, 2, 3, 4, 5, 6, 7] := by
  have h := evcandsFilterBatch_stable (fun (_ : Unit) (_ batch : List ℕ) =>
    (batch.map fun a => if a % 2 = 0 then 500 else 10, ())) (initDefL2Conf 0 100)
    ⟨[], 0, 0, 0, initDefL2Conf 0 100, ⟨64, 6, 10, 4, 1, 4⟩⟩ (by decide)
    (show 7 ≤ [1, 2, 3, 4, 5, 6, 7].length by decide) 0 ()
  dsimp only at h
  obtain ⟨-, -, addrs', hrun, htake, hperm⟩ := h
  have hv : filterVotes (fun (_ : Unit) (_ batch : List ℕ) =>
      (batch.map fun a => if a % 2 = 0 then 500 else 10, ())) (initDefL2Conf 0 100)
      (List.take 0 []) (batchesOf (batchSize 4) ([1, 2, 3, 4, 5, 6, 7].take 7)) () = ([2, 4, 6], ()) := by
    decide
  dsimp only [EvSet.lines] at hrun htake
  rw [hv] at hrun htake
  exact ⟨addrs', hrun, htake, hperm⟩

end EvCache
