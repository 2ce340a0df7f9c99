import Mathlib.Logic.Function.Basic
import Mathlib.Data.List.Range
import Mathlib.Order.Basic

set_option autoImplicit false

/-!
# vCPU topology detection

`detect_vcpu_topology` of `src/vm_tools/vtop.c` infers which vCPUs share a physical core and
which share a socket from the latency of a cache-line ping-pong between pairs of vCPUs. Each
measured latency is reduced to a class, `1` (stacked on one core) to `4` (remote socket), and
stored in the symmetric matrix `top_stack`, `0` meaning not yet known.

* `find_numa_groups` takes, in index order, the first vCPU without a socket as the leader of a
  new socket, measures it against every vCPU still without one, and puts those of class
  below `4` in its socket. It then closes the matrix by `apply_optimization`.
* `apply_optimization` is a Floyd–Warshall pass in the `(max, min)` semiring: an entry
  `(i, j)` takes the larger of `(i, k)` and `(k, j)` when that is smaller or `(i, j)` is
  unknown.
* `perform_probing` gives each socket a thread that measures the pairs of the socket still
  unknown, re-closing the matrix after each measurement under `top_stack_mutex`.
* `parse_topology` numbers the cores greedily: each vCPU without a core starts one, and every
  vCPU of class below `2` from it joins that core.

## Model

The matrix is a function `ℕ → ℕ → ℕ`, read on `[0, LAST_CPU_ID)²` only. The identifier arrays
are functions into `ℤ` with the source's `-1` for "none". `measure_latency_pair` is an oracle
`latency : ℕ → ℕ → ℤ` (the ping-pong threads and the sample sizes they adapt are not
modelled). The per-socket threads are interleaved by a schedule: a list of thread indices,
each letting that thread take one atomic step, either its unlocked read and measurement of a
pair or its locked update; after the schedule each thread runs to its end. Every interleaving
of the threads' critical sections and unlocked reads is such a schedule. Allocations succeed.
The tables `numa_to_pair_arr`, `pair_to_thread_arr`, `thread_to_cpu_arr`, `*_to_cpu` and the
pair identifiers `cpu_pair_id` are written but never reach the returned topology, and are
left out.

## Main definitions

* `EvCache.Vtop.getLatencyClass`, `EvCache.Vtop.applyOptimization`,
  `EvCache.Vtop.findNumaGroups`, `EvCache.Vtop.performProbing`,
  `EvCache.Vtop.parseTopology` — the functions of the same names.
* `EvCache.Vtop.detectVcpuTopology` — `detect_vcpu_topology`.

## Main results

* `EvCache.Vtop.performProbing_eq_of_idle` — when no socket has a pair left to measure, the
  probing phase does not depend on the interleaving.
* `EvCache.Vtop.detectVcpuTopology_splits_core` — on two cores of two stacked vCPUs each,
  the second core is reported as two cores.

## References

* `src/vm_tools/vtop.c`, lines 204-218 and 361-885; `src/vm_tools/vtop.h`.
-/

namespace EvCache.Vtop

/-- `MAX_CPUS` of `vtop.h`. -/
def maxCpus : ℕ := 192

/-- `cpu_relation_t` of `vtop.h`. -/
inductive CpuRelation where
  | smt
  | core
  | socket
  | remote
  deriving DecidableEq, Repr

/-- `threefour_latency_class`: the latency separating class `3` from class `4`. -/
def threefourLatencyClass : ℤ := 8500

/-- `get_latency_class` (`vtop.c:204`). -/
def getLatencyClass (latency : ℤ) : ℕ :=
  if latency < 0 ∨ 90000 < latency then 1
  else if latency < 2000 then 2
  else if latency < threefourLatencyClass then 3
  else 4

/-- `top_stack`: the latency class of each pair, `0` when unknown. A structure and not a bare
function, so that an update is a value and not a closure re-run at every read. -/
structure TopStack where
  get : ℕ → ℕ → ℕ

/-- `set_latency_pair(x, y, latency_class)` (`vtop.c:361`). -/
def setLatencyPair (top : TopStack) (x y cls : ℕ) : TopStack :=
  ⟨fun a b => if a = x ∧ b = y ∨ a = y ∧ b = x then cls else top.get a b⟩

/-! ## The closure -/

/-- Step `j` of row `i` of round `k` of `apply_optimization` (`vtop.c:409-416`). -/
def relaxVia (k i : ℕ) (top : TopStack) (j : ℕ) : TopStack :=
  if top.get k j = 0 then top
  else
    let via := max (top.get i k) (top.get k j)
    if top.get i j = 0 ∨ via < top.get i j then setLatencyPair top i j via else top

/-- Row `i` of round `k`, skipped when `top_stack[i][k]` is unknown at its start. -/
def relaxRow (n k : ℕ) (top : TopStack) (i : ℕ) : TopStack :=
  if top.get i k = 0 then top else (List.range n).foldl (relaxVia k i) top

/-- `apply_optimization` (`vtop.c:403`), in place, in the loop order `k`, `i`, `j`. -/
def applyOptimization (n : ℕ) (top : TopStack) : TopStack :=
  (List.range n).foldl (fun top k => (List.range n).foldl (relaxRow n k) top) top

/-! ## Sockets -/

/-- The variables `find_numa_groups` writes: `top_stack`, `cpu_group_id` and
`nr_numa_groups`. -/
structure NumaState where
  top : TopStack
  group : ℕ → ℤ
  nr : ℕ

/-- Step `j` of the inner loop for the leader `i` (`vtop.c:462-473`): a vCPU without a socket
is measured against the leader if its class is unknown, and joins the leader's socket if the
class is below `4`. -/
def numaVisit (latency : ℕ → ℕ → ℤ) (i : ℕ) (s : NumaState) (j : ℕ) : NumaState :=
  if s.group j ≠ -1 then s
  else
    let top := if s.top.get i j = 0 then setLatencyPair s.top i j (getLatencyClass (latency i j))
      else s.top
    if top.get i j < 4 then { s with top, group := Function.update s.group j s.nr }
    else { s with top }

/-- Step `i` of the outer loop (`vtop.c:459-475`): a vCPU without a socket leads a new one. -/
def numaLeader (n : ℕ) (latency : ℕ → ℕ → ℤ) (s : NumaState) (i : ℕ) : NumaState :=
  if s.group i ≠ -1 then s
  else
    let s := (List.range n).foldl (numaVisit latency i)
      { s with group := Function.update s.group i s.nr }
    { s with nr := s.nr + 1 }

/-- `find_numa_groups` (`vtop.c:437`) on `n = LAST_CPU_ID` vCPUs. -/
def findNumaGroups (n : ℕ) (latency : ℕ → ℕ → ℤ) (top : TopStack) : NumaState :=
  let s := (List.range n).foldl (numaLeader n latency) ⟨top, fun _ => -1, 0⟩
  { s with top := applyOptimization n s.top }

/-! ## Probing -/

/-- The pairs `i * n + j`, `i < j`, still unknown in socket `g`, in the order the fill loop
of `perform_probing` (`vtop.c:631-641`) lists them. -/
def pairsToTest (n : ℕ) (top : TopStack) (group : ℕ → ℤ) (nr g : ℕ) : List ℕ :=
  (List.range n).flatMap fun i =>
    ((List.range' (i + 1) (n - (i + 1))).filter fun j =>
      top.get i j = 0 ∧ 0 ≤ group i ∧ group i < nr ∧ 0 ≤ group j ∧ group j < nr ∧
        group i = group j ∧ group i = g).map fun j => i * n + j

/-- `latency_valid`, which nothing changes from `-1`. -/
def latencyValid : ℤ := -1

/-- What the probing threads share: `top_stack` and `failed_test`. -/
structure Shared where
  top : TopStack
  failed : Bool

/-- A thread of `MT_find_topology`: the pairs it has still to visit and, between its unlocked
measurement and its locked update, the measured pair and class. -/
structure Worker where
  pairs : List ℕ
  pending : Option (ℕ × ℕ × ℕ)

/-- The check that ends each pair of `ST_find_topology` (`vtop.c:519-523`): on a failure the
thread returns, which drops its remaining pairs. -/
def stCheck (s : Shared) (i j : ℕ) (rest : List ℕ) : Shared × List ℕ :=
  if s.failed ∨ (latencyValid ≠ -1 ∧ latencyValid ≠ (s.top.get i j : ℤ)) then
    ({ s with failed := true }, [])
  else (s, rest)

/-- One atomic step of a thread of `ST_find_topology` (`vtop.c:505`): the locked update of a
measured pair (`set_latency_pair`, then `apply_optimization` while `latency_valid = -1`), or
the unlocked read of the next pair, measured if unknown. -/
def workerStep (n : ℕ) (latency : ℕ → ℕ → ℤ) (s : Shared) (w : Worker) : Shared × Worker :=
  match w.pending with
  | some (i, j, cls) =>
    let top := setLatencyPair s.top i j cls
    let top := if latencyValid = -1 then applyOptimization n top else top
    let (s, rest) := stCheck { s with top } i j w.pairs
    (s, ⟨rest, none⟩)
  | none =>
    match w.pairs with
    | [] => (s, w)
    | x :: rest =>
      -- `j = input[x] % LAST_CPU_ID`, `i = (input[x] - j) / LAST_CPU_ID`
      let j := x % n
      let i := (x - x % n) / n
      if s.top.get i j = 0 then (s, ⟨rest, some (i, j, getLatencyClass (latency i j))⟩)
      else
        let (s, rest) := stCheck s i j rest
        (s, ⟨rest, none⟩)

/-- A thread running alone for `fuel` steps. -/
def workerRun (n : ℕ) (latency : ℕ → ℕ → ℤ) : ℕ → Shared → Worker → Shared
  | 0, s, _ => s
  | fuel + 1, s, w =>
    let (s, w) := workerStep n latency s w
    workerRun n latency fuel s w

/-- One entry of a schedule: thread `g` takes a step, if there is such a thread. -/
def schedStep (n : ℕ) (latency : ℕ → ℕ → ℤ) (sw : Shared × List Worker) (g : ℕ) :
    Shared × List Worker :=
  match sw.2[g]? with
  | some w =>
    let (s, w) := workerStep n latency sw.1 w
    (s, sw.2.set g w)
  | none => sw

/-- `MT_find_topology` (`vtop.c:536`) under the interleaving `sched`; the threads then run to
their ends, a thread taking at most two steps per pair and one for its pending update. -/
def mtFindTopology (n : ℕ) (latency : ℕ → ℕ → ℤ) (sched : List ℕ) (s : Shared)
    (ws : List Worker) : Shared :=
  let (s, ws) := sched.foldl (schedStep n latency) (s, ws)
  ws.foldl (fun s w => workerRun n latency (2 * w.pairs.length + 1) s w) s

/-- What `perform_probing` leaves: `top_stack`, `cpu_group_id`, `nr_numa_groups` and
`failed_test`. -/
structure Probe where
  top : TopStack
  group : ℕ → ℤ
  nr : ℕ
  failed : Bool

/-- `perform_probing` (`vtop.c:579`) under the interleaving `sched` of its threads. -/
def performProbing (n : ℕ) (latency : ℕ → ℕ → ℤ) (sched : List ℕ) (top : TopStack) :
    Probe :=
  let g := findNumaGroups n latency top
  let top := applyOptimization n g.top
  if g.nr = 0 then ⟨top, g.group, g.nr, false⟩
  else
    let ws := (List.range g.nr).map fun k => (⟨pairsToTest n top g.group g.nr k, none⟩ : Worker)
    let s := mtFindTopology n latency sched ⟨top, false⟩ ws
    ⟨s.top, g.group, g.nr, s.failed⟩

/-! ### Threads with nothing to measure -/

section Idle

variable (n : ℕ) (latency : ℕ → ℕ → ℤ)

lemma workerRun_idle : ∀ (fuel : ℕ) (s : Shared), workerRun n latency fuel s ⟨[], none⟩ = s
  | 0, _ => rfl
  | fuel + 1, s => workerRun_idle fuel s

lemma schedStep_idle {ws : List Worker} (hws : ∀ w ∈ ws, w = ⟨[], none⟩) (s : Shared)
    (g : ℕ) : schedStep n latency (s, ws) g = (s, ws) := by
  unfold schedStep
  cases hg : ws[g]? with
  | none => rfl
  | some w =>
    obtain ⟨hlt, hw⟩ := List.getElem?_eq_some_iff.mp hg
    obtain rfl : w = ⟨[], none⟩ := hws w (hw ▸ List.getElem_mem hlt)
    simp only [workerStep]
    rw [← hw, List.set_getElem_self]

lemma foldl_schedStep_idle {ws : List Worker} (hws : ∀ w ∈ ws, w = ⟨[], none⟩) :
    ∀ (sched : List ℕ) (s : Shared), sched.foldl (schedStep n latency) (s, ws) = (s, ws)
  | [], _ => rfl
  | g :: sched, s => by
    rw [List.foldl_cons, schedStep_idle n latency hws, foldl_schedStep_idle hws sched s]

/-- **Idle threads.** Threads with no pair to visit leave the shared state as it is, under
every interleaving. -/
lemma mtFindTopology_of_idle {ws : List Worker} (hws : ∀ w ∈ ws, w = ⟨[], none⟩)
    (sched : List ℕ) (s : Shared) : mtFindTopology n latency sched s ws = s := by
  unfold mtFindTopology
  rw [foldl_schedStep_idle n latency hws]
  dsimp only
  -- each thread then runs alone from its idle state
  induction ws generalizing s with
  | nil => rfl
  | cons w ws ih =>
    obtain rfl := hws w List.mem_cons_self
    rw [List.foldl_cons, workerRun_idle]
    exact ih (fun w' hw' => hws w' (List.mem_cons_of_mem _ hw')) s

/-- **Probing without pairs.** When the closure of `find_numa_groups` leaves no socket a pair
to measure, `perform_probing` returns that closure, whatever the interleaving of its
threads. -/
theorem performProbing_eq_of_idle (sched : List ℕ) (top : TopStack)
    (h : ∀ k < (findNumaGroups n latency top).nr,
      pairsToTest n (applyOptimization n (findNumaGroups n latency top).top)
        (findNumaGroups n latency top).group (findNumaGroups n latency top).nr k = []) :
    performProbing n latency sched top =
      ⟨applyOptimization n (findNumaGroups n latency top).top,
        (findNumaGroups n latency top).group, (findNumaGroups n latency top).nr, false⟩ := by
  unfold performProbing
  dsimp only
  split_ifs with h0
  · rfl
  · rw [mtFindTopology_of_idle]
    intro w hw
    obtain ⟨k, hk, rfl⟩ := List.mem_map.mp hw
    rw [h k (List.mem_range.mp hk)]

end Idle

/-! ## Cores and the result -/

/-- The variables of `parse_topology` that reach the result: `cpu_tt_id` and
`nr_tt_groups`. -/
structure ParseState where
  tt : ℕ → ℤ
  nrTt : ℕ

/-- Step `j` of the inner loop of `parse_topology` (`vtop.c:759-766`): a vCPU of class below
`2` from `i` takes the core of `i`. -/
def parseVisit (top : TopStack) (i : ℕ) (s : ParseState) (j : ℕ) : ParseState :=
  if top.get i j < 2 ∧ s.tt i ≠ -1 then { s with tt := Function.update s.tt j (s.tt i) } else s

/-- Step `i` of the outer loop of `parse_topology` (`vtop.c:712-770`): a vCPU without a core
starts a new one. -/
def parseRow (n : ℕ) (top : TopStack) (s : ParseState) (i : ℕ) : ParseState :=
  let s := if s.tt i = -1 then ⟨Function.update s.tt i s.nrTt, s.nrTt + 1⟩ else s
  (List.range n).foldl (parseVisit top i) s

/-- `parse_topology` (`vtop.c:660`) on `n = LAST_CPU_ID` vCPUs. -/
def parseTopology (n : ℕ) (top : TopStack) : ParseState :=
  (List.range n).foldl (parseRow n top) ⟨fun _ => -1, 0⟩

/-- `cpu_topology_t` of `vtop.h`, its arrays cut to the `LAST_CPU_ID` entries written. -/
structure CpuTopology where
  nr_cpus : ℕ
  nr_sockets : ℕ
  nr_cores : ℕ
  cpu_to_socket : List ℤ
  cpu_to_core : List ℤ
  relation_matrix : List (List CpuRelation)
  deriving DecidableEq, Repr

/-- An entry of `relation_matrix` (`vtop.c:820-830`). -/
def cpuRelation (group tt : ℕ → ℤ) (i j : ℕ) : CpuRelation :=
  if tt i = tt j then .smt else if group i = group j then .socket else .remote

/-- `detect_vcpu_topology` (`vtop.c:774`) on `nr_cpus = get_nprocs()` vCPUs, under the
interleaving `sched` of the probing threads; `none` for `NULL`. -/
def detectVcpuTopology (nr_cpus : ℕ) (latency : ℕ → ℕ → ℤ) (sched : List ℕ) :
    Option CpuTopology :=
  let n := min nr_cpus maxCpus
  -- `calloc`ed, with the diagonal set to the same-core class
  let top : TopStack := ⟨fun a b => if a = b ∧ a < n then 1 else 0⟩
  let p := performProbing n latency sched top
  if !p.failed then
    let t := parseTopology n p.top
    some ⟨nr_cpus, p.nr, t.nrTt, (List.range n).map p.group, (List.range n).map t.tt,
      (List.range n).map fun i => (List.range n).map fun j => cpuRelation p.group t.tt i j⟩
  else none

/-- **Stacked vCPUs split across cores.** Four vCPUs on two cores, `{0, 1}` and `{2, 3}`,
with the stacked class `1` within a core and class `2` across: the classes form an
ultrametric, yet `2` and `3` get different cores, under every interleaving. The leader `0`
measures its row, and the closure then writes `max 2 2 = 2` for `(2, 3)` through `0`, a pair
no thread measures again. -/
theorem detectVcpuTopology_splits_core :
    ∃ latency : ℕ → ℕ → ℤ,
      (∀ i < 4, ∀ j < 4, getLatencyClass (latency i j) = getLatencyClass (latency j i)) ∧
      (∀ i < 4, getLatencyClass (latency i i) = 1) ∧
      (∀ i < 4, ∀ j < 4, ∀ k < 4, getLatencyClass (latency i j) ≤
        max (getLatencyClass (latency i k)) (getLatencyClass (latency k j))) ∧
      getLatencyClass (latency 2 3) = 1 ∧
      ∀ sched, ∃ topo, detectVcpuTopology 4 latency sched = some topo ∧
        topo.nr_cores = 3 ∧ topo.cpu_to_core = [0, 0, 1, 2] := by
  refine ⟨fun i j => if i / 2 = j / 2 then 100000 else 1000, by decide, by decide, by decide,
    by decide, fun sched => ?_⟩
  -- no pair is left to the probing threads, so the interleaving does not matter
  have hp := performProbing_eq_of_idle (min 4 maxCpus)
    (fun i j => if i / 2 = j / 2 then 100000 else 1000) sched
    ⟨fun a b => if a = b ∧ a < min 4 maxCpus then 1 else 0⟩ (by decide)
  unfold detectVcpuTopology
  dsimp only
  rw [hp]
  exact ⟨_, rfl, by decide, by decide⟩

end EvCache.Vtop
