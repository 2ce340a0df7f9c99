import Mathlib

set_option autoImplicit false

/-!
# Granular work assignment of `build_l3_evsets_para_gran`

`build_l3_evsets_para_gran` (`src/src/evset_para.c`) builds the LLC eviction sets of every
cell `(offset, L2 set)` with thread pairs working in parallel. `calc_gran_assignments` lists
the cells L2 set by L2 set and cuts the list into one consecutive run per pair, the first
`remainder` pairs taking one cell more; each pair's worker then builds the eviction sets of its
cells in place, in `l3_cands[offset][set]` and `result_complex[offset][set]`.

## Model

Cells are pairs of numbers; the arrays of assignments are lists. `total_work` is the `u32`
product; the fill of `all_work` writes `n_l2_sets * n_offsets` entries, which is its size
below `2 ^ 32`, the range of the results. Allocation failures are left out. `--vtop` enters
only through the number of valid vCPU pairs it finds (`evset_para.c:477-485`).

## Main definitions

* `EvCache.Para.calcGranAssignments` — `calc_gran_assignments`.
* `EvCache.Para.granThreadCells` — the cells each thread pair works on.

## Main results

* `EvCache.Para.pairLoop_flatMap` — the runs of the pairs are consecutive pieces of
  `all_work`.
* `EvCache.Para.calcGranAssignments_spec` — the assignments list every cell once, in runs of
  `⌊T / p⌋` or `⌈T / p⌉` cells.
* `EvCache.Para.calcGranAssignments_partition` — for at least one pair, offset and L2 set and
  fewer than `2 ^ 32` cells, the assignments partition the cells in balanced runs, and no two
  thread pairs share a cell.

## References

* `src/src/evset_para.c`, lines 203-269, 281-355 and 420-526.
-/

namespace EvCache.Para

/-! ## The assignment -/

/-- `gran_work_assignment_t`: a cell of the candidate and result complexes. -/
structure WorkAssignment where
  offset_idx : ℕ
  l2_set_idx : ℕ
  deriving DecidableEq, Repr

/-- The entry `_calloc` leaves. -/
def WorkAssignment.zero : WorkAssignment := ⟨0, 0⟩

/-- `gran_pair_assignment_t`. -/
structure PairAssignment where
  assignments : List WorkAssignment
  n_assignments : ℕ
  pair_idx : ℕ
  deriving DecidableEq, Repr

/-- `all_work` as the nested loop fills it (`evset_para.c:226-233`): L2 set by L2 set, every
offset. -/
def allWork (n_offsets n_l2_sets : ℕ) : List WorkAssignment :=
  (List.range n_l2_sets).flatMap fun l2_set =>
    (List.range n_offsets).map fun offset => ⟨offset, l2_set⟩

/-- `pair_work_count` of the pair `pair` (`evset_para.c:238`). -/
def pairWorkCount (base_work remainder pair : ℕ) : ℕ :=
  base_work + if pair < remainder then 1 else 0

/-- The copy loop `for (i = 0; i < pair_work_count && current_work_idx < total_work; i++)`
(`evset_para.c:255-257`) with `k` iterations left: the pair's array and `current_work_idx`. -/
def copyLoop (all_work : List WorkAssignment) (total_work : ℕ) :
    ℕ → ℕ → List WorkAssignment → ℕ → List WorkAssignment × ℕ
  | 0, _, assignments, current_work_idx => (assignments, current_work_idx)
  | k + 1, i, assignments, current_work_idx =>
    if current_work_idx < total_work then
      copyLoop all_work total_work k (i + 1)
        (assignments.set i (all_work.getD current_work_idx .zero)) (current_work_idx + 1)
    else (assignments, current_work_idx)

/-- The distribution loop (`evset_para.c:236-265`) over `k` pairs from `pair` on. -/
def pairLoop (all_work : List WorkAssignment) (total_work base_work remainder : ℕ) :
    ℕ → ℕ → ℕ → List PairAssignment
  | 0, _, _ => []
  | k + 1, pair, current_work_idx =>
    let pair_work_count := pairWorkCount base_work remainder pair
    if 0 < pair_work_count then
      let copied := copyLoop all_work total_work pair_work_count 0
        (List.replicate pair_work_count .zero) current_work_idx
      ⟨copied.1, pair_work_count, pair⟩ ::
        pairLoop all_work total_work base_work remainder k (pair + 1) copied.2
    else
      ⟨[], 0, pair⟩ :: pairLoop all_work total_work base_work remainder k (pair + 1)
        current_work_idx

/-- `calc_gran_assignments(n_pairs, n_offsets, n_l2_sets, &total_assignments)`
(`evset_para.c:203-269`): the pairs' assignments, `none` for `NULL`, and
`*total_assignments`. -/
def calcGranAssignments (n_pairs n_offsets n_l2_sets : ℕ) : Option (List PairAssignment) × ℕ :=
  let total_work := n_offsets * n_l2_sets % 2 ^ 32
  if total_work = 0 ∨ n_pairs = 0 then (none, total_work)
  else
    let n_pairs := if n_pairs > total_work then total_work else n_pairs
    let base_work := total_work / n_pairs
    let remainder := total_work % n_pairs
    (some (pairLoop (allWork n_offsets n_l2_sets) total_work base_work remainder n_pairs 0 0),
      total_work)

/-- The cells `evset_thread_worker_gran` (`evset_para.c:312-346`) works on: for each of its
`n_assignments` entries, `l3_cands[offset_idx][l2_set_idx]` and the same place of
`result_complex`. -/
def workerCells (pa : PairAssignment) : List (ℕ × ℕ) :=
  (List.range pa.n_assignments).map fun i =>
    let w := pa.assignments.getD i .zero
    (w.offset_idx, w.l2_set_idx)

/-- The cells of each thread pair `build_l3_evsets_para_gran` starts (`evset_para.c:420-422`,
`477-526`), `valid_vcpu_pairs` the pairs `--vtop` found, if it ran; `none` where it returns
before starting them. -/
def granThreadCells (n_pairs : ℕ) (valid_vcpu_pairs : Option ℕ) (n_offsets n_l2_sets : ℕ) :
    Option (List (List (ℕ × ℕ))) :=
  let total_work := n_offsets * n_l2_sets % 2 ^ 32
  let n_pairs := if n_pairs > total_work then total_work else n_pairs
  let n_pairs := match valid_vcpu_pairs with
    | some v => if v < n_pairs then v else n_pairs
    | none => n_pairs
  (calcGranAssignments n_pairs n_offsets n_l2_sets).1.map fun pas =>
    (List.range n_pairs).map fun i => workerCells (pas.getD i ⟨[], 0, 0⟩)

/-! ## The cells -/

@[simp] lemma length_allWork (n_offsets n_l2_sets : ℕ) :
    (allWork n_offsets n_l2_sets).length = n_offsets * n_l2_sets := by
  simp [allWork, List.length_flatMap, Nat.mul_comm]

lemma mem_allWork {n_offsets n_l2_sets : ℕ} {w : WorkAssignment} :
    w ∈ allWork n_offsets n_l2_sets ↔ w.offset_idx < n_offsets ∧ w.l2_set_idx < n_l2_sets := by
  obtain ⟨o, l⟩ := w
  simp only [allWork, List.mem_flatMap, List.mem_range, List.mem_map, WorkAssignment.mk.injEq]
  constructor
  · rintro ⟨l', hl', o', ho', rfl, rfl⟩
    exact ⟨ho', hl'⟩
  · rintro ⟨ho, hl⟩
    exact ⟨l, hl, o, ho, rfl, rfl⟩

/-- Every cell is listed once. -/
lemma nodup_allWork (n_offsets n_l2_sets : ℕ) : (allWork n_offsets n_l2_sets).Nodup := by
  refine List.nodup_flatMap.mpr ⟨fun l _ => ?_, ?_⟩
  · exact List.nodup_range.map fun a b h => by simpa using h
  · -- the cells of two L2 sets differ in their set
    refine List.nodup_range.pairwise_of_forall_ne fun l₁ _ l₂ _ hne => ?_
    simp only [List.disjoint_left, List.mem_map, List.mem_range]
    rintro w ⟨o, -, rfl⟩ ⟨o', -, h⟩
    exact hne (WorkAssignment.mk.inj h).2.symm

/-! ## The copy and the distribution -/

section Loops

variable (all_work : List WorkAssignment) (total_work base_work remainder : ℕ)

/-- **The copy loop** appends the next `k` entries of `all_work` to what it copied so far,
when they are there. -/
lemma copyLoop_fill (hall : total_work ≤ all_work.length) :
    ∀ (k : ℕ) (done : List WorkAssignment) (current_work_idx : ℕ),
      current_work_idx + k ≤ total_work →
      copyLoop all_work total_work k done.length (done ++ List.replicate k .zero)
          current_work_idx =
        (done ++ (all_work.drop current_work_idx).take k, current_work_idx + k) := by
  intro k
  induction k with
  | zero => intro done cur _; simp [copyLoop]
  | succ k ih =>
    intro done cur hk
    have hcur : cur < all_work.length := by omega
    have hset : (done ++ List.replicate (k + 1) WorkAssignment.zero).set done.length
        (all_work.getD cur .zero) = (done ++ [all_work[cur]]) ++ List.replicate k .zero := by
      rw [List.set_append_right _ _ le_rfl, Nat.sub_self, List.replicate_succ, List.set_cons_zero,
        List.getD_eq_getElem _ _ hcur, List.append_assoc, List.singleton_append]
    rw [copyLoop, if_pos (by omega), hset, show done.length + 1 = (done ++ [all_work[cur]]).length
      by simp, ih _ _ (by omega), List.drop_eq_getElem_cons hcur, List.take_succ_cons,
      List.append_assoc, List.singleton_append]
    exact Prod.ext rfl (by omega)

/-- The cells the pairs from `pair` on take, `k` of them. -/
def pairsWork : ℕ → ℕ → ℕ
  | 0, _ => 0
  | k + 1, pair => pairWorkCount base_work remainder pair + pairsWork k (pair + 1)

lemma pairsWork_eq : ∀ (k pair : ℕ),
    pairsWork base_work remainder k pair =
      k * base_work + (min remainder (pair + k) - min remainder pair) := by
  intro k
  induction k with
  | zero => intro pair; simp [pairsWork]
  | succ k ih =>
    intro pair
    rw [pairsWork, ih, pairWorkCount, Nat.succ_mul]
    split_ifs <;> omega

@[simp] lemma length_pairLoop : ∀ (k pair current_work_idx : ℕ),
    (pairLoop all_work total_work base_work remainder k pair current_work_idx).length = k
  | 0, _, _ => rfl
  | k + 1, pair, cur => by
    unfold pairLoop
    dsimp only
    split_ifs <;> simp [length_pairLoop]

/-- **The runs of the pairs are consecutive pieces of `all_work`**, as long as `all_work`
holds enough cells.

**Proof sketch.** Induction on the number of pairs: each copies the next `pair_work_count`
entries (`copyLoop_fill`), and `List.take_add` glues the pieces. -/
lemma pairLoop_flatMap (hall : total_work ≤ all_work.length) :
    ∀ (k pair current_work_idx : ℕ),
      current_work_idx + pairsWork base_work remainder k pair ≤ total_work →
      (pairLoop all_work total_work base_work remainder k pair current_work_idx).flatMap
          PairAssignment.assignments =
        (all_work.drop current_work_idx).take (pairsWork base_work remainder k pair) := by
  intro k
  induction k with
  | zero => intro pair cur _; simp [pairLoop, pairsWork]
  | succ k ih =>
    intro pair cur hk
    rw [pairsWork] at hk ⊢
    have hcopy := copyLoop_fill all_work total_work hall (pairWorkCount base_work remainder pair)
      [] cur (by omega)
    simp only [List.length_nil, List.nil_append] at hcopy
    unfold pairLoop
    dsimp only
    split_ifs
    · rw [List.flatMap_cons, hcopy, ih _ _ (by omega), List.take_add, List.drop_drop]
    · rw [List.flatMap_cons, ih _ _ (by omega), List.take_add, List.drop_drop]
      simp_all

/-- Every pair from `pair` on has as many entries as it says, `pair_work_count` of its
index. -/
lemma pairLoop_counts (hall : total_work ≤ all_work.length) :
    ∀ (k pair current_work_idx : ℕ),
      current_work_idx + pairsWork base_work remainder k pair ≤ total_work →
      ∀ pa ∈ pairLoop all_work total_work base_work remainder k pair current_work_idx,
        pa.n_assignments = pa.assignments.length ∧
          ∃ i, pair ≤ i ∧ i < pair + k ∧ pa.n_assignments = pairWorkCount base_work remainder i := by
  intro k
  induction k with
  | zero => intro pair cur _ pa hpa; simp [pairLoop] at hpa
  | succ k ih =>
    intro pair cur hk pa hpa
    rw [pairsWork] at hk
    have hcopy := copyLoop_fill all_work total_work hall (pairWorkCount base_work remainder pair)
      [] cur (by omega)
    simp only [List.length_nil, List.nil_append] at hcopy
    unfold pairLoop at hpa
    dsimp only at hpa
    split_ifs at hpa with hpos
    · rcases List.mem_cons.mp hpa with rfl | hpa
      · refine ⟨?_, pair, le_rfl, by omega, rfl⟩
        simp only [hcopy, List.length_take, List.length_drop]
        omega
      · obtain ⟨heq, i, hi₁, hi₂, hi⟩ := ih (pair + 1) _ (by simp only [hcopy]; omega) pa hpa
        exact ⟨heq, i, by omega, by omega, hi⟩
    · rcases List.mem_cons.mp hpa with rfl | hpa
      · exact ⟨rfl, pair, le_rfl, by omega, show 0 = _ by omega⟩
      · obtain ⟨heq, i, hi₁, hi₂, hi⟩ := ih (pair + 1) cur (by omega) pa hpa
        exact ⟨heq, i, by omega, by omega, hi⟩

end Loops

/-! ## `calc_gran_assignments` -/

/-- The share of a pair, `⌊T / p⌋` plus one for the first `T % p` pairs, is `⌊T / p⌋` or
`⌈T / p⌉`. -/
lemma pairWorkCount_floor_or_ceil {T p : ℕ} (hp : 0 < p) (i : ℕ) :
    pairWorkCount (T / p) (T % p) i = T / p ∨ pairWorkCount (T / p) (T % p) i = (T + p - 1) / p := by
  unfold pairWorkCount
  split_ifs with hi
  · right
    have hdiv := Nat.div_add_mod T p
    have hmod := Nat.mod_lt T hp
    have h₁ : (T / p + 1) * p = p * (T / p) + p := by ring
    have h₂ : (T / p + 1 + 1) * p = p * (T / p) + 2 * p := by ring
    symm
    apply Nat.div_eq_of_lt_le <;> omega
  · left
    simp

/-- **`calc_gran_assignments` is a balanced partition.** For `n_pairs ≥ 1` and a nonzero `u32`
product `T`, it returns `p = min n_pairs T` assignments whose concatenation is `all_work`, each
run of `⌊T / p⌋` or `⌈T / p⌉` cells. -/
theorem calcGranAssignments_spec {n_pairs n_offsets n_l2_sets : ℕ} (hp : 0 < n_pairs)
    (hT₀ : 0 < n_offsets * n_l2_sets) (hT : n_offsets * n_l2_sets < 2 ^ 32) :
    ∃ pas, calcGranAssignments n_pairs n_offsets n_l2_sets =
        (some pas, n_offsets * n_l2_sets) ∧
      pas.length = min n_pairs (n_offsets * n_l2_sets) ∧
      pas.flatMap PairAssignment.assignments = allWork n_offsets n_l2_sets ∧
      ∀ pa ∈ pas, pa.n_assignments = pa.assignments.length ∧
        (pa.n_assignments = n_offsets * n_l2_sets / min n_pairs (n_offsets * n_l2_sets) ∨
          pa.n_assignments = (n_offsets * n_l2_sets + min n_pairs (n_offsets * n_l2_sets) - 1) /
            min n_pairs (n_offsets * n_l2_sets)) := by
  set T := n_offsets * n_l2_sets with hTdef
  have hmod : T % 2 ^ 32 = T := Nat.mod_eq_of_lt hT
  have hcap : (if n_pairs > T then T else n_pairs) = min n_pairs T := by
    split_ifs <;> omega
  set p := min n_pairs T with hpdef
  have hp₀ : 0 < p := by omega
  -- the shares add up to all of `all_work`
  have hsum : pairsWork (T / p) (T % p) p 0 = T := by
    rw [pairsWork_eq, Nat.zero_add, Nat.min_eq_left (Nat.mod_lt T hp₀).le, Nat.min_zero,
      Nat.sub_zero]
    exact Nat.div_add_mod T p
  have hall : (allWork n_offsets n_l2_sets).length = T := by simp [hTdef]
  refine ⟨pairLoop (allWork n_offsets n_l2_sets) T (T / p) (T % p) p 0 0, ?_, by simp, ?_,
    fun pa hpa => ?_⟩
  · simp only [calcGranAssignments, ← hTdef, hmod]
    rw [if_neg (by omega), hcap]
  · rw [pairLoop_flatMap _ _ _ _ hall.ge p 0 0 (by omega), hsum, List.drop_zero,
      List.take_of_length_le hall.le]
  · obtain ⟨heq, i, -, -, hi⟩ :=
      pairLoop_counts _ _ _ _ hall.ge p 0 0 (by omega) pa hpa
    exact ⟨heq, hi ▸ pairWorkCount_floor_or_ceil hp₀ i⟩

/-! ## The thread pairs -/

lemma workerCells_eq {pa : PairAssignment} (h : pa.n_assignments = pa.assignments.length) :
    workerCells pa = pa.assignments.map fun w => (w.offset_idx, w.l2_set_idx) := by
  unfold workerCells
  rw [h]
  apply List.ext_getElem (by simp)
  intro i h₁ h₂
  have hi : i < pa.assignments.length := by simpa using h₂
  simp [List.getElem?_eq_getElem hi]

/-- **No two thread pairs share a cell**, nor does one pair visit a cell twice: whatever
`--vtop` found, the cells of the pairs are the runs of a partition of `all_work`. -/
lemma granThreadCells_disjoint {n_pairs n_offsets n_l2_sets : ℕ} (hT : n_offsets * n_l2_sets < 2 ^ 32)
    (valid_vcpu_pairs : Option ℕ) {cells : List (List (ℕ × ℕ))}
    (h : granThreadCells n_pairs valid_vcpu_pairs n_offsets n_l2_sets = some cells) :
    (∀ c ∈ cells, c.Nodup) ∧ cells.Pairwise List.Disjoint := by
  set T := n_offsets * n_l2_sets with hTdef
  have hmod : T % 2 ^ 32 = T := Nat.mod_eq_of_lt hT
  unfold granThreadCells at h
  simp only [← hTdef, hmod] at h
  -- the number of pairs that reach `calc_gran_assignments`
  generalize hq : (match valid_vcpu_pairs with
    | some v => if v < (if n_pairs > T then T else n_pairs) then v
      else (if n_pairs > T then T else n_pairs)
    | none => if n_pairs > T then T else n_pairs) = q at h
  have hqT : q ≤ T := by
    subst hq
    cases valid_vcpu_pairs <;> simp only <;> split_ifs <;> omega
  by_cases hq₀ : q = 0
  · simp [hq₀, calcGranAssignments, ← hTdef] at h
  by_cases hT₀ : T = 0
  · simp [hT₀, calcGranAssignments, ← hTdef] at h
  obtain ⟨pas, hcalc, hlen, hflat, hcount⟩ := calcGranAssignments_spec (Nat.pos_of_ne_zero hq₀)
    (Nat.pos_of_ne_zero hT₀) hT
  rw [hcalc, Option.map_some, Option.some.injEq] at h
  rw [← hTdef, Nat.min_eq_left hqT] at hlen
  have hcells : cells = pas.map workerCells := by
    rw [← h, ← hlen]
    apply List.ext_getElem (by simp)
    intro i h₁ h₂
    have hi : i < pas.length := by simpa using h₂
    simp [List.getElem?_eq_getElem hi]
  have hworker : pas.map workerCells = pas.map fun pa =>
      pa.assignments.map fun w => (w.offset_idx, w.l2_set_idx) :=
    List.map_congr_left fun pa hpa => workerCells_eq (hcount pa hpa).1
  -- the flattened cells are the cells of `all_work`, each once
  have hnodup : cells.flatten.Nodup := by
    rw [hcells, hworker, ← List.flatMap_def, ← List.map_flatMap, hflat]
    exact (nodup_allWork n_offsets n_l2_sets).map fun a b hab => by
      cases a; cases b; simpa using hab
  exact List.nodup_flatten.mp hnodup

/-- **Granular work assignment is an exact balanced partition.** For `n_pairs`, `n_offsets`
and `n_l2_sets` at least one with `T = n_offsets * n_l2_sets < 2 ^ 32`,
`calc_gran_assignments` returns `p = min n_pairs T` assignments listing every cell of
`[0, n_offsets) × [0, n_l2_sets)` exactly once, each of `⌊T / p⌋` or `⌈T / p⌉` cells; and in
`build_l3_evsets_para_gran`, with or without `--vtop`, no two thread pairs work on the same
`l3_cands` or `result_complex` cell. -/
theorem calcGranAssignments_partition {n_pairs n_offsets n_l2_sets : ℕ} (hp : 1 ≤ n_pairs)
    (ho : 1 ≤ n_offsets) (hl : 1 ≤ n_l2_sets) (hT : n_offsets * n_l2_sets < 2 ^ 32) :
    (∃ pas, calcGranAssignments n_pairs n_offsets n_l2_sets =
        (some pas, n_offsets * n_l2_sets) ∧
      pas.length = min n_pairs (n_offsets * n_l2_sets) ∧
      (pas.flatMap PairAssignment.assignments).Nodup ∧
      (∀ w, w ∈ pas.flatMap PairAssignment.assignments ↔
        w.offset_idx < n_offsets ∧ w.l2_set_idx < n_l2_sets) ∧
      ∀ pa ∈ pas, pa.n_assignments = pa.assignments.length ∧
        (pa.n_assignments = n_offsets * n_l2_sets / min n_pairs (n_offsets * n_l2_sets) ∨
          pa.n_assignments = (n_offsets * n_l2_sets + min n_pairs (n_offsets * n_l2_sets) - 1) /
            min n_pairs (n_offsets * n_l2_sets))) ∧
    (granThreadCells n_pairs none n_offsets n_l2_sets).isSome ∧
    ∀ valid_vcpu_pairs cells, granThreadCells n_pairs valid_vcpu_pairs n_offsets n_l2_sets =
      some cells → cells.Pairwise List.Disjoint := by
  have hT₀ : 0 < n_offsets * n_l2_sets := Nat.mul_pos ho hl
  obtain ⟨pas, hcalc, hlen, hflat, hcount⟩ := calcGranAssignments_spec hp hT₀ hT
  refine ⟨⟨pas, hcalc, hlen, hflat ▸ nodup_allWork n_offsets n_l2_sets,
    fun w => hflat ▸ mem_allWork, hcount⟩, ?_,
    fun v cells h => (granThreadCells_disjoint hT v h).2⟩
  -- without `--vtop` the pairs are capped at `T` and reach `calc_gran_assignments`
  have hcap : (if n_pairs > n_offsets * n_l2_sets then n_offsets * n_l2_sets else n_pairs) =
      min n_pairs (n_offsets * n_l2_sets) := by
    split_ifs <;> omega
  obtain ⟨pas', hcalc', -⟩ :=
    @calcGranAssignments_spec (min n_pairs (n_offsets * n_l2_sets)) n_offsets n_l2_sets (by omega)
      hT₀ hT
  have hmod : n_offsets * n_l2_sets % 2 ^ 32 = n_offsets * n_l2_sets := Nat.mod_eq_of_lt hT
  unfold granThreadCells
  rw [hmod]
  dsimp only
  rw [hcap, hcalc']
  rfl

/-- Four pairs for two offsets and three L2 sets: six cells in runs of one or two. -/
theorem calcGranAssignments_partition_four :
    (∃ pas, calcGranAssignments 4 2 3 = (some pas, 2 * 3) ∧
      pas.length = min 4 (2 * 3) ∧
      (pas.flatMap PairAssignment.assignments).Nodup ∧
      (∀ w, w ∈ pas.flatMap PairAssignment.assignments ↔ w.offset_idx < 2 ∧ w.l2_set_idx < 3) ∧
      ∀ pa ∈ pas, pa.n_assignments = pa.assignments.length ∧
        (pa.n_assignments = 2 * 3 / min 4 (2 * 3) ∨
          pa.n_assignments = (2 * 3 + min 4 (2 * 3) - 1) / min 4 (2 * 3))) ∧
    (granThreadCells 4 none 2 3).isSome ∧
    ∀ valid_vcpu_pairs cells, granThreadCells 4 valid_vcpu_pairs 2 3 = some cells →
      cells.Pairwise List.Disjoint :=
  calcGranAssignments_partition (by decide) (by decide) (by decide) (by decide)

example : (calcGranAssignments 4 2 3).1.map (List.map PairAssignment.n_assignments) =
    some [2, 2, 1, 1] := by
  decide

end EvCache.Para
