import EvCache.Vtop.Detect
import EvCache.Lib.CArray
import Mathlib

set_option autoImplicit false

/-!
# Pairing vCPUs for the thread pairs

`find_optimal_vcpu_pairs` (`src/src/evset_para.c`) picks the vCPUs the main and helper threads
of each pair are pinned to. It walks the sockets one by one, collects the unused vCPUs of the
socket in order, and pairs them two by two. When the two vCPUs at positions `i` and `i + 1`
are SMT siblings, it looks further on for a partner of the first one that is not, and swaps
it into position `i + 1`; when there is none, it leaves both and moves on.

The swap only ever moves vCPUs at positions after `i`, so the candidate array stays a
duplicate-free permutation of the socket's free vCPUs whose entries from the scan position on
are in no pair yet. That is the invariant `ScanInv`; every pair is then made of two distinct
vCPUs of one socket that are not SMT siblings, and no vCPU is in two pairs.

## Main definitions

* `EvCache.Para.VcpuPairAssignment` — `vcpu_pair_assignment_t`.
* `EvCache.Para.pairScan` — the pairing loop over one socket's vCPUs.
* `EvCache.Para.findOptimalVcpuPairs` — `find_optimal_vcpu_pairs`.
* `EvCache.Para.GoodPair` — a pair as the comment of `find_optimal_vcpu_pairs` describes it.

## Main results

* `EvCache.Para.ScanInv.step` — one pass of the pairing loop keeps the invariant.
* `EvCache.Para.findOptimalVcpuPairs_disjoint` — at most the requested number of pairs, all
  good, and no vCPU in two of them.

## Model

The vCPU ids are the loop indices `0 ≤ i < nr_cpus` the scan stores, so they are natural
numbers. The topology's arrays are the lists of `CpuTopology`; past their end the entries are
the zeros of the `calloc` in `detect_vcpu_topology`, socket `0` and `CPU_RELATION_SMT`. The
entries the function writes, `pair_assignments[0..valid_pairs_found)`, are the list `pairs`,
and `valid_pairs_found` is its length. The candidate array is the `socket_vcpu_count` entries
the scan fills; the rest of its `calloc`ed room is never read. Allocation failures are left
out, and so is the `verbose` printing.

## References

* `src/src/evset_para.c`, lines 120-201; `src/vm_tools/vtop.h`, lines 14-42.
-/

namespace EvCache.Para

open Vtop CArray

/-! ## Model -/

/-- `vcpu_pair_assignment_t` (`evset_para.h`). -/
structure VcpuPairAssignment where
  main_vcpu : ℕ
  helper_vcpu : ℕ
  assigned : Bool
  deriving DecidableEq, Repr

/-- The two vCPUs of a pair. -/
def pairVcpus (p : VcpuPairAssignment) : List ℕ := [p.main_vcpu, p.helper_vcpu]

/-- `topo->cpu_to_socket[i]`. -/
def cpuToSocket (topo : CpuTopology) (i : ℕ) : ℤ := topo.cpu_to_socket.getD i 0

/-- `topo->relation_matrix[i][j]`. -/
def relationMatrix (topo : CpuTopology) (i j : ℕ) : CpuRelation :=
  (topo.relation_matrix.getD i []).getD j .smt

/-- The state of the walk over the sockets: `vcpu_used` and the pairs written. -/
structure PairsState where
  vcpu_used : List Bool
  pairs : List VcpuPairAssignment
  deriving DecidableEq, Repr

/-- The state of the pairing loop of one socket: the candidate array as well. -/
structure ScanState where
  socket_vcpus : List ℕ
  vcpu_used : List Bool
  pairs : List VcpuPairAssignment
  deriving DecidableEq, Repr

/-- The unused vCPUs of `socket`, in order (`evset_para.c:146-150`). -/
def socketVcpus (topo : CpuTopology) (vcpu_used : List Bool) (socket : ℕ) : List ℕ :=
  (List.range topo.nr_cpus).filter fun i =>
    cpuToSocket topo i == (socket : ℤ) && !vcpu_used.getD i false

/-- The first partner of `vcpu1` in `socket_vcpus[i + 2 .. count)` that is not its SMT sibling
(`evset_para.c:162-174`). -/
def findPartner (topo : CpuTopology) (socket_vcpus : List ℕ) (count i vcpu1 : ℕ) : Option ℕ :=
  (List.range' (i + 2) (count - (i + 2))).find? fun j =>
    relationMatrix topo vcpu1 (socket_vcpus.getD j 0) != .smt

/-- A pair written to `pair_assignments[valid_pairs_found]`, and both vCPUs marked used
(`evset_para.c:182-190`). -/
def recordPair (s : ScanState) (vcpu1 vcpu2 : ℕ) : ScanState :=
  { s with
    pairs := s.pairs ++ [⟨vcpu1, vcpu2, true⟩]
    vcpu_used := (s.vcpu_used.set vcpu1 true).set vcpu2 true }

/-- The body of the pairing loop at position `i` (`evset_para.c:156-190`): pair the vCPUs at
`i` and `i + 1`, after swapping a non-SMT partner into `i + 1` if they are SMT siblings, or
skip both when there is none. -/
def pairBody (topo : CpuTopology) (count : ℕ) (s : ScanState) (i : ℕ) : ScanState :=
  let vcpu1 := s.socket_vcpus.getD i 0
  let vcpu2 := s.socket_vcpus.getD (i + 1) 0
  if relationMatrix topo vcpu1 vcpu2 = .smt then
    match findPartner topo s.socket_vcpus count i vcpu1 with
    | some j =>
      recordPair { s with socket_vcpus := exch s.socket_vcpus (i + 1) j } vcpu1
        (s.socket_vcpus.getD j 0)
    | none => s
  else recordPair s vcpu1 vcpu2

/-- One pass of the pairing loop. The loop ends when `valid_pairs_found` reaches the request
or when no second vCPU is left (the `break`); both only ever hold from some pass on, so a
pass where one holds changes nothing. -/
def pairScanStep (topo : CpuTopology) (n_requested_pairs count : ℕ) (s : ScanState) (i : ℕ) :
    ScanState :=
  if s.pairs.length < n_requested_pairs ∧ i + 1 < count then pairBody topo count s i else s

/-- The pairing loop `for (i = 0; i < socket_vcpu_count && ...; i += 2)`, over the positions
`0, 2, 4, ...` below `count`. -/
def pairScan (topo : CpuTopology) (n_requested_pairs count : ℕ) (s : ScanState) : ScanState :=
  (List.range' 0 ((count + 1) / 2) 2).foldl (pairScanStep topo n_requested_pairs count) s

/-- One socket of the walk (`evset_para.c:135-195`). -/
def socketStep (topo : CpuTopology) (n_requested_pairs : ℕ) (s : PairsState) (socket : ℕ) :
    PairsState :=
  if s.pairs.length < n_requested_pairs then
    let socket_vcpus := socketVcpus topo s.vcpu_used socket
    let r := pairScan topo n_requested_pairs socket_vcpus.length
      ⟨socket_vcpus, s.vcpu_used, s.pairs⟩
    ⟨r.vcpu_used, r.pairs⟩
  else s

/-- `find_optimal_vcpu_pairs(topo, n_requested_pairs, pair_assignments)`
(`evset_para.c:120`): the number of pairs found, and the entries written. -/
def findOptimalVcpuPairs (topo : CpuTopology) (n_requested_pairs : ℕ) :
    ℕ × List VcpuPairAssignment :=
  if n_requested_pairs = 0 then (0, [])
  else
    let s := (List.range topo.nr_sockets).foldl (socketStep topo n_requested_pairs)
      ⟨List.replicate topo.nr_cpus false, []⟩
    (s.pairs.length, s.pairs)

/-- A pair of two distinct vCPUs of one socket that are not SMT siblings. -/
structure GoodPair (topo : CpuTopology) (p : VcpuPairAssignment) : Prop where
  main_lt : p.main_vcpu < topo.nr_cpus
  helper_lt : p.helper_vcpu < topo.nr_cpus
  ne : p.main_vcpu ≠ p.helper_vcpu
  socket_eq : cpuToSocket topo p.main_vcpu = cpuToSocket topo p.helper_vcpu
  not_smt : relationMatrix topo p.main_vcpu p.helper_vcpu ≠ .smt
  assigned : p.assigned = true

/-! ## The invariants -/

/-- What the walk keeps of its pairs: at most the request, all good, no vCPU twice, and every
paired vCPU marked used. -/
structure PairsInv (topo : CpuTopology) (n : ℕ) (used : List Bool)
    (pairs : List VcpuPairAssignment) : Prop where
  length_le : pairs.length ≤ n
  good : ∀ p ∈ pairs, GoodPair topo p
  nodup : (pairs.flatMap pairVcpus).Nodup
  length_used : used.length = topo.nr_cpus
  used : ∀ v ∈ pairs.flatMap pairVcpus, used.getD v false = true

/-- What the pairing loop of `socket` keeps at position `i`: the candidate array holds `count`
distinct vCPUs of the socket, those from `i` on are in no pair, and the pairs keep
`PairsInv`. -/
structure ScanInv (topo : CpuTopology) (n socket count i : ℕ) (s : ScanState) : Prop where
  length : s.socket_vcpus.length = count
  nodup : s.socket_vcpus.Nodup
  mem : ∀ v ∈ s.socket_vcpus, v < topo.nr_cpus ∧ cpuToSocket topo v = socket
  fresh : ∀ v ∈ s.socket_vcpus.drop i, v ∉ s.pairs.flatMap pairVcpus
  pairs : PairsInv topo n s.vcpu_used s.pairs

variable {topo : CpuTopology} {n : ℕ}

lemma getD_set_true_of_getD {l : List Bool} {v : ℕ} (h : l.getD v false = true) (k : ℕ) :
    (l.set k true).getD v false = true := by
  rw [List.getD_eq_getElem?_getD, List.getElem?_set] at *
  split_ifs <;> simp_all

lemma getD_set_true_self {l : List Bool} {k : ℕ} (hk : k < l.length) :
    (l.set k true).getD k false = true := by
  simp [List.getD_eq_getElem?_getD, hk]

/-- Writing a fresh good pair keeps `PairsInv`. -/
lemma PairsInv.record {used : List Bool} {pairs : List VcpuPairAssignment}
    (h : PairsInv topo n used pairs) (hlen : pairs.length < n) {v₁ v₂ : ℕ}
    (hgood : GoodPair topo ⟨v₁, v₂, true⟩) (h₁ : v₁ ∉ pairs.flatMap pairVcpus)
    (h₂ : v₂ ∉ pairs.flatMap pairVcpus) :
    PairsInv topo n ((used.set v₁ true).set v₂ true) (pairs ++ [⟨v₁, v₂, true⟩]) := by
  have hv : ∀ v ∈ pairVcpus ⟨v₁, v₂, true⟩, v = v₁ ∨ v = v₂ := by simp [pairVcpus]
  refine ⟨by simp; omega, ?_, ?_, by simp [h.length_used], ?_⟩
  · intro p hp
    rcases List.mem_append.mp hp with hp | hp
    · exact h.good p hp
    · rwa [List.mem_singleton.mp hp]
  · rw [List.flatMap_append, List.nodup_append]
    refine ⟨h.nodup, by simp [pairVcpus, hgood.ne], ?_⟩
    intro a ha b hb hab
    subst hab
    rcases hv a (by simpa using hb) with rfl | rfl
    · exact h₁ ha
    · exact h₂ ha
  · -- the new pair's two vCPUs are marked by the two writes
    have hl₁ : v₁ < used.length := h.length_used ▸ hgood.main_lt
    have hl₂ : v₂ < (used.set v₁ true).length := by simp [h.length_used, hgood.helper_lt]
    have hboth : ((used.set v₁ true).set v₂ true).getD v₁ false = true ∧
        ((used.set v₁ true).set v₂ true).getD v₂ false = true :=
      ⟨getD_set_true_of_getD (getD_set_true_self hl₁) v₂, getD_set_true_self hl₂⟩
    intro v hv'
    rw [List.flatMap_append, List.mem_append] at hv'
    rcases hv' with hv' | hv'
    · exact getD_set_true_of_getD (getD_set_true_of_getD (h.used v hv') _) _
    · rcases hv v (by simpa using hv') with rfl | rfl
      · exact hboth.1
      · exact hboth.2

variable {socket count i : ℕ} {s : ScanState}

/-- Skipping two positions keeps the invariant. -/
lemma ScanInv.skip (h : ScanInv topo n socket count i s) : ScanInv topo n socket count (i + 2) s :=
  { h with fresh := fun v hv => h.fresh v (List.drop_subset_drop_left _ (by omega) hv) }

/-- Pairing the entries at `i` and `i + 1` of a candidate array that permutes the old one
behind position `i` keeps the invariant.

**Proof sketch.** The entries from `i` on are a permutation of the old ones, so they are in
no pair; `v₁` and `v₂` are two of them, distinct as the array is duplicate-free, and the
entries from `i + 2` on are neither. -/
lemma ScanInv.record (h : ScanInv topo n socket count i s) {sv : List ℕ}
    (hperm : sv.Perm s.socket_vcpus) (htake : sv.take i = s.socket_vcpus.take i)
    (hlen : s.pairs.length < n) {v₁ v₂ : ℕ} (hi : i + 1 < sv.length) (h₁ : sv[i]? = some v₁)
    (h₂ : sv[i + 1]? = some v₂) (hrel : relationMatrix topo v₁ v₂ ≠ .smt) :
    ScanInv topo n socket count (i + 2) (recordPair { s with socket_vcpus := sv } v₁ v₂) := by
  -- the entries from `i` on, before and after
  have hdrop : sv.drop i = v₁ :: v₂ :: sv.drop (i + 2) := by
    have hi₀ : i < sv.length := by omega
    rw [List.getElem?_eq_getElem hi₀, Option.some.injEq] at h₁
    rw [List.getElem?_eq_getElem hi, Option.some.injEq] at h₂
    rw [List.drop_eq_getElem_cons hi₀, List.drop_eq_getElem_cons hi, h₁, h₂]
  have hdrop_perm : (sv.drop i).Perm (s.socket_vcpus.drop i) := by
    have hp := hperm
    rw [← List.take_append_drop i sv, ← List.take_append_drop i s.socket_vcpus, htake] at hp
    exact (List.perm_append_left_iff _).mp hp
  have hnd : (v₁ :: v₂ :: sv.drop (i + 2)).Nodup :=
    hdrop ▸ (hperm.nodup_iff.mpr h.nodup).sublist (List.drop_sublist i sv)
  have hfresh : ∀ v ∈ sv.drop i, v ∉ s.pairs.flatMap pairVcpus :=
    fun v hv => h.fresh v (hdrop_perm.mem_iff.mp hv)
  have hmem : ∀ v ∈ sv.drop i, v < topo.nr_cpus ∧ cpuToSocket topo v = socket :=
    fun v hv => h.mem v (hperm.mem_iff.mp (List.mem_of_mem_drop hv))
  have hne : v₁ ≠ v₂ := fun he => (List.nodup_cons.mp hnd).1 (by simp [he])
  have hv₁ := hmem v₁ (by simp [hdrop])
  have hv₂ := hmem v₂ (by simp [hdrop])
  refine ⟨by simp [recordPair, hperm.length_eq, h.length], hperm.nodup_iff.mpr h.nodup,
    fun v hv => h.mem v (hperm.mem_iff.mp hv), ?_, ?_⟩
  · intro v hv hpv
    simp only [recordPair, List.flatMap_append, List.mem_append] at hpv
    rcases hpv with hpv | hpv
    · exact hfresh v (List.drop_subset_drop_left _ (by omega) hv) hpv
    · have hv' : v = v₁ ∨ v = v₂ := by simpa [pairVcpus] using hpv
      rcases hv' with rfl | rfl
      · exact (List.nodup_cons.mp hnd).1 (List.mem_cons_of_mem _ hv)
      · exact (List.nodup_cons.mp (List.nodup_cons.mp hnd).2).1 hv
  · exact h.pairs.record hlen ⟨hv₁.1, hv₂.1, hne, hv₁.2.trans hv₂.2.symm, hrel, rfl⟩
      (hfresh v₁ (by simp [hdrop])) (hfresh v₂ (by simp [hdrop]))

lemma getElem?_eq_some_getD {l : List ℕ} {k : ℕ} (hk : k < l.length) : l[k]? = some (l.getD k 0) := by
  simp [List.getD_eq_getElem?_getD, List.getElem?_eq_getElem hk]

/-- **One pass of the pairing loop** keeps the invariant, two positions on.

**Proof sketch.** A pass that pairs the two entries as they are, or after the swap, is
`ScanInv.record`: the swap exchanges positions `i + 1` and `j > i + 1`, so it permutes the
array and leaves it unchanged before `i + 1`. A pass that finds no partner, or does not run,
is `ScanInv.skip`. -/
lemma ScanInv.step (h : ScanInv topo n socket count i s) :
    ScanInv topo n socket count (i + 2) (pairScanStep topo n count s i) := by
  unfold pairScanStep
  split_ifs with hg
  · obtain ⟨hlen, hi⟩ := hg
    have hi' : i + 1 < s.socket_vcpus.length := h.length ▸ hi
    have h₁ := getElem?_eq_some_getD (show i < s.socket_vcpus.length by omega)
    unfold pairBody
    dsimp only
    split_ifs with hsmt
    · cases hj : findPartner topo s.socket_vcpus count i (s.socket_vcpus.getD i 0) with
      | none => exact h.skip
      | some j =>
        -- the partner lies in `[i + 2, count)` and is not an SMT sibling
        have hjp := List.find?_some hj
        obtain ⟨hj₁, hj₂⟩ := List.mem_range'_1.mp (List.mem_of_find?_eq_some hj)
        have hj' : j < s.socket_vcpus.length := by have := h.length; omega
        refine h.record (exch_perm _ _ _) (take_exch_of_le _ (by omega) (by omega)) hlen
          (by simpa using hi') ?_ ?_ (by simpa using hjp)
        · rw [getElem?_exch _ hi' hj', if_neg (by omega), if_neg (by omega), h₁]
        · rw [getElem?_exch _ hi' hj', if_neg (by omega), if_pos rfl,
            getElem?_eq_some_getD hj']
    · exact h.record (List.Perm.refl _) rfl hlen hi' h₁ (getElem?_eq_some_getD hi') hsmt
  · exact h.skip

/-- The whole pairing loop of a socket keeps the invariant. -/
lemma ScanInv.foldl (h : ScanInv topo n socket count i s) (k : ℕ) :
    ScanInv topo n socket count (i + 2 * k)
      ((List.range' i k 2).foldl (pairScanStep topo n count) s) := by
  induction k generalizing i s with
  | zero => simpa using h
  | succ k ih =>
    rw [List.range'_succ, List.foldl_cons]
    have := ih h.step
    rwa [show i + 2 + 2 * k = i + 2 * (k + 1) by ring] at this

/-- The candidates of a socket are unused, hence in no pair. -/
lemma PairsInv.scanInv {s : PairsState} (h : PairsInv topo n s.vcpu_used s.pairs) (socket : ℕ) :
    ScanInv topo n socket (socketVcpus topo s.vcpu_used socket).length 0
      ⟨socketVcpus topo s.vcpu_used socket, s.vcpu_used, s.pairs⟩ := by
  refine ⟨rfl, List.nodup_range.filter _, ?_, ?_, h⟩
  · intro v hv
    simp only [socketVcpus, List.mem_filter, List.mem_range, Bool.and_eq_true, beq_iff_eq,
      Bool.not_eq_true'] at hv
    exact ⟨hv.1, hv.2.1⟩
  · intro v hv hpv
    have hused := h.used v hpv
    rw [List.getD_eq_getElem?_getD] at hused
    rw [List.drop_zero, socketVcpus, List.mem_filter] at hv
    simp [hused] at hv

/-- One socket of the walk keeps `PairsInv`. -/
lemma socketStep_pairsInv {s : PairsState} (h : PairsInv topo n s.vcpu_used s.pairs)
    (socket : ℕ) :
    PairsInv topo n (socketStep topo n s socket).vcpu_used (socketStep topo n s socket).pairs := by
  unfold socketStep
  split_ifs
  · have := (h.scanInv socket).foldl ((((socketVcpus topo s.vcpu_used socket).length + 1) / 2))
    exact this.pairs
  · exact h

lemma foldl_socketStep_pairsInv : ∀ (sockets : List ℕ) (s : PairsState),
    PairsInv topo n s.vcpu_used s.pairs →
    PairsInv topo n (sockets.foldl (socketStep topo n) s).vcpu_used
      (sockets.foldl (socketStep topo n) s).pairs
  | [], _, h => h
  | socket :: sockets, _, h => foldl_socketStep_pairsInv sockets _ (socketStep_pairsInv h socket)

/-- **`find_optimal_vcpu_pairs` pairs disjoint same-socket non-SMT vCPUs.** For every
topology and every request, the function finds at most the requested number of pairs, writes
one entry per pair found, each of two distinct vCPUs below `nr_cpus` on one socket that are
not SMT siblings, and no vCPU is in two pairs.

**Proof sketch.** `PairsInv` holds of the empty start, every socket keeps it
(`socketStep_pairsInv`, through `ScanInv.step` for each pass of its pairing loop), so it holds
at the end. -/
theorem findOptimalVcpuPairs_disjoint (topo : CpuTopology) (n_requested_pairs : ℕ) :
    (findOptimalVcpuPairs topo n_requested_pairs).1 ≤ n_requested_pairs ∧
      (findOptimalVcpuPairs topo n_requested_pairs).2.length =
        (findOptimalVcpuPairs topo n_requested_pairs).1 ∧
      (∀ p ∈ (findOptimalVcpuPairs topo n_requested_pairs).2, GoodPair topo p) ∧
      ((findOptimalVcpuPairs topo n_requested_pairs).2.flatMap pairVcpus).Nodup := by
  unfold findOptimalVcpuPairs
  split_ifs
  · simp
  · have hinit : PairsInv topo n_requested_pairs (List.replicate topo.nr_cpus false) [] :=
      ⟨by simp, by simp, by simp, by simp, by simp⟩
    have h := foldl_socketStep_pairsInv (List.range topo.nr_sockets)
      ⟨List.replicate topo.nr_cpus false, []⟩ hinit
    exact ⟨h.length_le, rfl, h.good, h.nodup⟩

/-- Four vCPUs of one socket on two cores, `{0, 1}` and `{2, 3}`: `1` is swapped out for `2`,
and the pairs are `(0, 2)` and `(1, 3)`. -/
example :
    findOptimalVcpuPairs ⟨4, 1, 2, [0, 0, 0, 0], [0, 0, 1, 1],
      [[.smt, .smt, .socket, .socket], [.smt, .smt, .socket, .socket],
        [.socket, .socket, .smt, .smt], [.socket, .socket, .smt, .smt]]⟩ 2 =
      (2, [⟨0, 2, true⟩, ⟨1, 3, true⟩]) := by
  decide

end EvCache.Para
