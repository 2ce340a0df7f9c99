import Mathlib
import EvCache.Lib.CArray
import EvCache.Vset.Wait

set_option autoImplicit false

/-!
# The socket preference of the LCAS monitor

`monitor_l3_occupancy_lcas` measures the L3 occupancy of every socket on each scan and smooths
it into one EWMA per socket. It then sorts the sockets coolest first and publishes a socket
order to the BPF map `lcas_dom_order`, where the `scx_rusty` scheduler reads it. Key `0` holds
the preferred socket, or `n_sockets` for no preference. The loop also keeps a debounced
preference: `coldest` moves to a new coolest socket only once `change_cnt` has counted three
scans in a row in which a socket other than `coldest` was the coolest, at a lower `lcas_level`.

The debounce holds of `coldest` (`lcasScan_coldest_switch`). It does not reach the map, by
design: every scan starts with `update_lcas_map(order, n_sockets, no_pref)` on its own order,
whose comment says it writes every scan to update `scx_rusty`, and the later writes of the scan
write that same order. So after every scan the map holds the order of that
scan alone (`lcasScan_map`, `lcasRun_key_zero`), and the sockets published after two scans in a
row are the coolest sockets of those scans (`lcasRun_key_zero_pair`). With two sockets, one swap
of the coolest socket swaps the published preference at once, while `coldest` stays
(`lcasRun_key_zero_unsettled`).

## Main definitions

* `EvCache.Vset.updateLcasMap`, `EvCache.Vset.lcasLevel` — `update_lcas_map` and `lcas_level`.
* `EvCache.Vset.lcasScan`, `EvCache.Vset.lcasRun` — the decision of one scan, and of a run.
* `EvCache.Vset.Challenges` — a scan that counts towards moving `coldest`.
* `EvCache.Vset.Streak` — the invariant that `change_cnt` counts challenging scans.
* `EvCache.Vset.lcasWaitAdapt`, `EvCache.Vset.lcasWaitRun` — the adaptation of the wait.

## Main results

* `EvCache.Vset.lcasScan_map` — a scan leaves the map as its first `update_lcas_map` does.
* `EvCache.Vset.lcasRun_key_zero` — key `0` after a scan is that scan's coolest socket, or
  `n_sockets`.
* `EvCache.Vset.lcasRun_key_zero_pair` — the sockets published after two scans in a row are the
  coolest sockets of those two scans.
* `EvCache.Vset.lcasRun_streak` — on every run `change_cnt` is the number of the last scans,
  each of which challenged `coldest`.
* `EvCache.Vset.lcasScan_coldest_switch` — `coldest` moves from a socket only after three
  challenging scans in a row.
* `EvCache.Vset.lcasRun_key_zero_unsettled` — key `0` changes on one scan.
* `EvCache.Vset.lcasWaitRun_shrink_after_two` — the wait shrinks only after two saturated scans
  in a row.
* `EvCache.Vset.lcasWaitRun_saturated` — under saturation the wait shrinks by 1 ms every second
  scan, down to at most 1 ms.

## Model

A scan is the list of EWMA values it ends with, one per socket, as rationals; the smoothing
and the occupancy measurement are left out. The wait adaptation reads a scan as in
`EvCache.Vset.Wait`, with `none` for a socket without a helper pair, whose EWMA stays `0`. The map is a function from
keys to values. `pinned` says whether `bpf_obj_get` finds the map at `LCAS_MAP_PATH`, the same
for the whole run. `qsort` with `cmp_cool` is any function on lists of `socket_hot_t`, and a
result that needs it to sort says so. The `static` state of the loop starts as C initialises
it. `change_cnt` is an `i32` that stays at most `3`, so it is a natural number here.
`ewma[coldest]` indexes the EWMA values by a socket id, as the source does.

## References

* `src/src/vset_ops.c`, lines 26-27, 39-40, 79-121 and 1860-1967.
-/

namespace EvCache.Vset

/-! ## Model -/

/-- `LCAS_MAX_SOCKETS` (`vset_ops.c:27`); as the value of `coldest`, no preferred socket. -/
def lcasMaxSockets : ℕ := 16

/-- `lcas_level` (`vset_ops.c:97-106`): the band of the hotness `h`. -/
def lcasLevel (h : ℚ) : ℕ :=
  if h * 100 < 40 then 0 else if h * 100 < 65 then 1 else if h * 100 < 85 then 2 else 3

/-- `socket_hot_t` (`vset_ops.c:108-111`). -/
structure SocketHot where
  socket : ℕ
  hot : ℚ
  deriving DecidableEq, Repr

/-- `update_lcas_map(order, n_sockets, no_pref)` (`vset_ops.c:79-95`) on the map `m`. -/
def updateLcasMap (pinned : Bool) (m : ℕ → ℕ) (order : List ℕ) (n_sockets : ℕ)
    (no_pref : Bool) : ℕ → ℕ :=
  if pinned = false then m
  else if no_pref then Function.update m 0 n_sockets
  else (List.range n_sockets).foldl (fun m i => Function.update m i (order.getD i 0)) m

/-- What a run of the monitor is given: `qsort` with `cmp_cool`, whether the map is pinned,
and the socket ids of `sinfo`. -/
structure LcasConf where
  qsort : List SocketHot → List SocketHot
  pinned : Bool
  n_sockets : ℕ
  socket_ids : List ℕ

/-- `tmp` after the `qsort` (`vset_ops.c:1894-1899`). -/
def LcasConf.tmp (cf : LcasConf) (ewma : List ℚ) : List SocketHot :=
  cf.qsort ((List.range cf.n_sockets).map fun i => ⟨cf.socket_ids.getD i 0, ewma.getD i 0⟩)

/-- `order` (`vset_ops.c:1900-1901`): the socket ids, coolest first. -/
def LcasConf.order (cf : LcasConf) (ewma : List ℚ) : List ℕ :=
  (List.range cf.n_sockets).map fun i => ((cf.tmp ewma).getD i ⟨0, 0⟩).socket

/-- `all_same` (`vset_ops.c:1903-1906`), which is `no_pref`: every socket is at the level of
the coolest. -/
def LcasConf.noPref (cf : LcasConf) (ewma : List ℚ) : Bool :=
  (List.range' 1 (cf.n_sockets - 1)).all fun i =>
    lcasLevel ((cf.tmp ewma).getD i ⟨0, 0⟩).hot == lcasLevel ((cf.tmp ewma).getD 0 ⟨0, 0⟩).hot

/-- `cand` (`vset_ops.c:1935`). -/
def LcasConf.cand (cf : LcasConf) (ewma : List ℚ) : ℕ := (cf.order ewma).getD 0 0

/-- `cand_lvl` (`vset_ops.c:1936`). -/
def LcasConf.candLvl (cf : LcasConf) (ewma : List ℚ) : ℕ :=
  lcasLevel ((cf.tmp ewma).getD 0 ⟨0, 0⟩).hot

/-- `cold_lvl` (`vset_ops.c:1937`). -/
def coldLvl (coldest : ℕ) (ewma : List ℚ) : ℕ :=
  if coldest = lcasMaxSockets then 4 else lcasLevel (ewma.getD coldest 0)

/-- The `static` state of the loop and the contents of the map. -/
structure LcasState where
  first : Bool
  last_order : List ℕ
  change_cnt : ℕ
  coldest : ℕ
  map : ℕ → ℕ

/-- The state before the first scan, with the map holding `m`. -/
def lcasStart (m : ℕ → ℕ) : LcasState :=
  ⟨true, List.replicate lcasMaxSockets 0, 0, lcasMaxSockets, m⟩

/-- The decision of one scan ending at `ewma` (`vset_ops.c:1908-1964`). -/
def lcasScan (cf : LcasConf) (s : LcasState) (ewma : List ℚ) : LcasState :=
  let order := cf.order ewma
  let no_pref := cf.noPref ewma
  -- "this would write every scan anyway to update rusty"
  let map := updateLcasMap cf.pinned s.map order cf.n_sockets no_pref
  if s.first then
    ⟨false, order, s.change_cnt, if no_pref then lcasMaxSockets else order.getD 0 0, map⟩
  else if no_pref then ⟨false, s.last_order, 0, lcasMaxSockets, map⟩
  else
    let change_cnt :=
      if cf.cand ewma ≠ s.coldest ∧ cf.candLvl ewma < coldLvl s.coldest ewma then
        s.change_cnt + 1
      else 0
    if s.coldest = lcasMaxSockets ∨ 3 ≤ change_cnt then
      ⟨false, order, 0, cf.cand ewma, updateLcasMap cf.pinned map order cf.n_sockets false⟩
    else if order ≠ s.last_order then
      ⟨false, order, change_cnt, s.coldest, updateLcasMap cf.pinned map order cf.n_sockets false⟩
    else ⟨false, s.last_order, change_cnt, s.coldest, map⟩

/-- The state after the scans `scans`. -/
def lcasRun (cf : LcasConf) (m : ℕ → ℕ) (scans : List (List ℚ)) : LcasState :=
  scans.foldl (lcasScan cf) (lcasStart m)

lemma lcasRun_append (cf : LcasConf) (m : ℕ → ℕ) (scans : List (List ℚ)) (ewma : List ℚ) :
    lcasRun cf m (scans ++ [ewma]) = lcasScan cf (lcasRun cf m scans) ewma := by
  rw [lcasRun, List.foldl_append, List.foldl_cons, List.foldl_nil]
  rfl

/-! ## What the map holds -/

/-- The scan `ewma` challenges `coldest = a` (`vset_ops.c:1938`): it has a preference, and its
coolest socket is not `a` and is at a lower level than `a`. -/
def Challenges (cf : LcasConf) (a : ℕ) (ewma : List ℚ) : Prop :=
  cf.noPref ewma = false ∧ cf.cand ewma ≠ a ∧ cf.candLvl ewma < coldLvl a ewma

instance (cf : LcasConf) (a : ℕ) (ewma : List ℚ) : Decidable (Challenges cf a ewma) :=
  inferInstanceAs (Decidable (_ ∧ _ ∧ _))

/-- The count `change_cnt` reaches on the scan `ewma`, before a move resets it. -/
def LcasState.nextCnt (s : LcasState) (cf : LcasConf) (ewma : List ℚ) : ℕ :=
  if Challenges cf s.coldest ewma then s.change_cnt + 1 else 0

section Scan

variable {cf : LcasConf} {s : LcasState} {ewma : List ℚ}

lemma lcasScan_first : (lcasScan cf s ewma).first = false := by
  unfold lcasScan
  dsimp only
  split_ifs <;> rfl

lemma lcasScan_of_first (hf : s.first = true) :
    (lcasScan cf s ewma).change_cnt = s.change_cnt ∧
      (lcasScan cf s ewma).coldest = if cf.noPref ewma then lcasMaxSockets else cf.cand ewma := by
  unfold lcasScan
  dsimp only
  rw [if_pos hf]
  exact ⟨rfl, rfl⟩

lemma lcasScan_of_noPref (hf : s.first = false) (hp : cf.noPref ewma = true) :
    (lcasScan cf s ewma).change_cnt = 0 ∧ (lcasScan cf s ewma).coldest = lcasMaxSockets := by
  unfold lcasScan
  dsimp only
  rw [if_neg (by simp [hf]), if_pos hp]
  exact ⟨rfl, rfl⟩

/-- A scan with a preference counts a challenge of `coldest`, and moves `coldest` to its
coolest socket when there is none, or at the third challenge in a row. -/
lemma lcasScan_of_pref (hf : s.first = false) (hp : cf.noPref ewma = false) :
    (lcasScan cf s ewma).change_cnt =
        (if s.coldest = lcasMaxSockets ∨ 3 ≤ s.nextCnt cf ewma then 0 else s.nextCnt cf ewma) ∧
      (lcasScan cf s ewma).coldest =
        if s.coldest = lcasMaxSockets ∨ 3 ≤ s.nextCnt cf ewma then cf.cand ewma else s.coldest := by
  have hcnt : (if cf.cand ewma ≠ s.coldest ∧ cf.candLvl ewma < coldLvl s.coldest ewma then
      s.change_cnt + 1 else 0) = s.nextCnt cf ewma := by
    simp [LcasState.nextCnt, Challenges, hp]
  unfold lcasScan
  dsimp only
  rw [if_neg (by simp [hf]), if_neg (by simp [hp]), hcnt]
  split_ifs <;> exact ⟨rfl, rfl⟩

end Scan

/-- **The invariant of the debounce.** `change_cnt` is the number of the last scans, each of
which challenged the present `coldest`; before the first scan it is zero, with no `coldest`. -/
structure Streak (cf : LcasConf) (scans : List (List ℚ)) (s : LcasState) : Prop where
  start : s.first = true → s.change_cnt = 0 ∧ s.coldest = lcasMaxSockets
  suffix : ∃ pre suf, scans = pre ++ suf ∧ suf.length = s.change_cnt ∧
    ∀ e ∈ suf, Challenges cf s.coldest e

lemma Streak.reset {cf : LcasConf} {s : LcasState} (scans : List (List ℚ)) (hf : s.first = false)
    (h0 : s.change_cnt = 0) : Streak cf scans s where
  start h := by rw [hf] at h; cases h
  suffix := ⟨scans, [], by rw [List.append_nil], by rw [h0, List.length_nil], by simp⟩

/-- **One scan keeps the invariant.** A scan that neither moves nor resets `coldest` adds one
challenge of it to the count. -/
lemma Streak.scan {cf : LcasConf} {scans : List (List ℚ)} {s : LcasState} (h : Streak cf scans s)
    (ewma : List ℚ) : Streak cf (scans ++ [ewma]) (lcasScan cf s ewma) := by
  have hf' : (lcasScan cf s ewma).first = false := lcasScan_first
  cases hf : s.first
  · cases hp : cf.noPref ewma
    · obtain ⟨hcnt, hcold⟩ := lcasScan_of_pref hf hp
      by_cases hsw : s.coldest = lcasMaxSockets ∨ 3 ≤ s.nextCnt cf ewma
      · rw [if_pos hsw] at hcnt
        exact Streak.reset _ hf' hcnt
      rw [if_neg hsw] at hcnt hcold
      by_cases hch : Challenges cf s.coldest ewma
      · obtain ⟨pre, suf, hscans, hlen, hall⟩ := h.suffix
        refine ⟨fun h => (Bool.false_ne_true (hf'.symm.trans h)).elim, pre, suf ++ [ewma],
          by rw [hscans, List.append_assoc], ?_, ?_⟩
        · rw [List.length_append, hlen, hcnt, LcasState.nextCnt, if_pos hch, List.length_singleton]
        · rw [hcold]
          intro e he
          rcases List.mem_append.mp he with he | he
          · exact hall e he
          · rw [List.mem_singleton.mp he]
            exact hch
      · rw [LcasState.nextCnt, if_neg hch] at hcnt
        exact Streak.reset _ hf' hcnt
    · exact Streak.reset _ hf' (lcasScan_of_noPref hf hp).1
  · -- the first scan keeps `change_cnt`, which is zero before it
    exact Streak.reset _ hf' ((lcasScan_of_first hf).1.trans (h.start hf).1)

/-- On every run `change_cnt` counts the last scans, all challenging `coldest`. -/
theorem lcasRun_streak (cf : LcasConf) (m : ℕ → ℕ) (scans : List (List ℚ)) :
    Streak cf scans (lcasRun cf m scans) := by
  induction scans using List.reverseRecOn with
  | nil => exact ⟨fun _ => ⟨rfl, rfl⟩, [], [], rfl, rfl, by simp⟩
  | append_singleton scans ewma ih =>
    rw [lcasRun_append]
    exact ih.scan ewma

lemma exists_eq_append_pair {α : Type*} {l : List α} (h : 2 ≤ l.length) :
    ∃ l₀ a b, l = l₀ ++ [a, b] := by
  obtain ⟨a, b, hab⟩ := List.length_eq_two.mp
    (show (l.drop (l.length - 2)).length = 2 by rw [List.length_drop]; omega)
  exact ⟨l.take (l.length - 2), a, b, by rw [← hab, List.take_append_drop]⟩

/-- **`coldest` moves from a socket only after three challenging scans in a row.** When the
scan `ewma` after `scans` moves `coldest` from a socket `a` to another socket, the two scans
before it and itself each had a preference and a coolest socket other than `a`, at a lower
level than `a` in that scan; `coldest` moves to the coolest socket of the last.

**Proof sketch.** The move is the branch `change_cnt >= 3`, reached only from a count of two
challenges of `a`, which `Streak` places on the last two scans. -/
theorem lcasScan_coldest_switch (cf : LcasConf) (m : ℕ → ℕ) (scans : List (List ℚ))
    (ewma : List ℚ) (ha : (lcasRun cf m scans).coldest ≠ lcasMaxSockets)
    (hb : (lcasRun cf m (scans ++ [ewma])).coldest ≠ (lcasRun cf m scans).coldest)
    (hb' : (lcasRun cf m (scans ++ [ewma])).coldest ≠ lcasMaxSockets) :
    (lcasRun cf m (scans ++ [ewma])).coldest = cf.cand ewma ∧
      ∃ pre e₁ e₂, scans = pre ++ [e₁, e₂] ∧
        ∀ e ∈ [e₁, e₂, ewma], Challenges cf (lcasRun cf m scans).coldest e := by
  have hst := lcasRun_streak cf m scans
  rw [lcasRun_append] at hb hb' ⊢
  set s := lcasRun cf m scans
  -- neither the first scan nor one without a preference moves `coldest` to a socket
  have hf : s.first = false := by
    cases hf : s.first
    · rfl
    · exact absurd (hst.start hf).2 ha
  have hp : cf.noPref ewma = false := by
    cases hp : cf.noPref ewma
    · rfl
    · exact absurd (lcasScan_of_noPref hf hp).2 hb'
  have hcold := (lcasScan_of_pref hf hp).2
  have hsw : s.coldest = lcasMaxSockets ∨ 3 ≤ s.nextCnt cf ewma := by
    by_contra hsw
    rw [if_neg hsw] at hcold
    exact hb hcold
  have hthree := hsw.resolve_left ha
  have hch : Challenges cf s.coldest ewma := by
    by_contra hch
    rw [LcasState.nextCnt, if_neg hch] at hthree
    omega
  rw [LcasState.nextCnt, if_pos hch] at hthree
  obtain ⟨pre, suf, hscans, hlen, hall⟩ := hst.suffix
  obtain ⟨suf₀, e₁, e₂, rfl⟩ := exists_eq_append_pair (l := suf) (by omega)
  refine ⟨by rw [hcold, if_pos hsw], pre ++ suf₀, e₁, e₂, by rw [hscans, List.append_assoc], ?_⟩
  intro e he
  simp only [List.mem_cons, List.not_mem_nil, or_false] at he
  rcases he with rfl | rfl | rfl
  · exact hall _ (by simp)
  · exact hall _ (by simp)
  · exact hch

/-- Two sockets sorted by an insertion sort: socket `0` is the coolest on the first scan, and
socket `1` on the next three, the third of which moves `coldest` to it. -/
theorem lcasScan_coldest_switch_two :
    (lcasRun ⟨List.insertionSort (fun a b : SocketHot => a.hot ≤ b.hot), true, 2, [0, 1]⟩
        (fun _ => 0) ([[1 / 10, 9 / 10], [9 / 10, 1 / 10], [9 / 10, 1 / 10]] ++
          [[9 / 10, 1 / 10]])).coldest =
        LcasConf.cand ⟨List.insertionSort (fun a b : SocketHot => a.hot ≤ b.hot), true, 2, [0, 1]⟩
          [9 / 10, 1 / 10] ∧
      ∃ pre e₁ e₂, [[1 / 10, 9 / 10], [9 / 10, 1 / 10], [9 / 10, 1 / 10]] = pre ++ [e₁, e₂] ∧
        ∀ e ∈ [e₁, e₂, [9 / 10, 1 / 10]],
          Challenges ⟨List.insertionSort (fun a b : SocketHot => a.hot ≤ b.hot), true, 2, [0, 1]⟩
            (lcasRun ⟨List.insertionSort (fun a b : SocketHot => a.hot ≤ b.hot), true, 2, [0, 1]⟩
              (fun _ => 0) [[1 / 10, 9 / 10], [9 / 10, 1 / 10], [9 / 10, 1 / 10]]).coldest e :=
  lcasScan_coldest_switch ⟨List.insertionSort (fun a b : SocketHot => a.hot ≤ b.hot), true, 2,
    [0, 1]⟩ (fun _ => 0) [[1 / 10, 9 / 10], [9 / 10, 1 / 10], [9 / 10, 1 / 10]] [9 / 10, 1 / 10]
    (by decide +kernel) (by decide +kernel) (by decide +kernel)

/-! ## The published preference is not debounced -/

/-- The wait adaptation of `monitor_l3_occupancy_lcas` (`vset_ops.c:1882-1891`) after a scan
ending at `ewma`, `none` for a socket without a helper pair, which `high` does not count. It
has no branch back to `-w`. -/
def lcasWaitAdapt (fix_wait : Bool) (s : MonitorState) (ewma : List (Option ℚ)) : MonitorState :=
  if fix_wait = false ∧ 1000 < s.wait_time_us then
    let consec_shrink_high :=
      if nHotSocket ewma = ewma.length then s.consec_shrink_high + 1 else 0
    if 2 ≤ consec_shrink_high then ⟨s.wait_time_us - 1000, 0⟩
    else ⟨s.wait_time_us, consec_shrink_high⟩
  else s

/-- The wait over the scans `scans`, from the wait `W` and a count of zero. -/
def lcasWaitRun (fix_wait : Bool) (W : ℕ) (scans : List (List (Option ℚ))) : MonitorState :=
  scans.foldl (lcasWaitAdapt fix_wait) ⟨W, 0⟩

lemma lcasWaitRun_append (fix_wait : Bool) (W : ℕ) (scans : List (List (Option ℚ)))
    (ewma : List (Option ℚ)) :
    lcasWaitRun fix_wait W (scans ++ [ewma]) =
      lcasWaitAdapt fix_wait (lcasWaitRun fix_wait W scans) ewma := by
  rw [lcasWaitRun, List.foldl_append, List.foldl_cons, List.foldl_nil]
  rfl

section WaitStep

variable {fix_wait : Bool} (s : MonitorState) (ewma : List (Option ℚ))

lemma lcasWaitAdapt_of_frozen (h : fix_wait = true ∨ s.wait_time_us ≤ 1000) :
    lcasWaitAdapt fix_wait s ewma = s := by
  have hg : ¬(fix_wait = false ∧ 1000 < s.wait_time_us) := by
    rintro ⟨hf, hw⟩
    rcases h with h | h
    · rw [hf] at h
      cases h
    · omega
  simp only [lcasWaitAdapt, if_neg hg]

/-- A saturated scan counts; the second one in a row shrinks the wait by 1 ms. -/
lemma lcasWaitAdapt_of_saturated (hw : 1000 < s.wait_time_us)
    (hh : nHotSocket ewma = ewma.length) :
    lcasWaitAdapt false s ewma =
      if s.consec_shrink_high = 0 then ⟨s.wait_time_us, 1⟩ else ⟨s.wait_time_us - 1000, 0⟩ := by
  unfold lcasWaitAdapt
  rw [if_pos ⟨rfl, hw⟩]
  dsimp only
  rw [if_pos hh]
  by_cases hc : s.consec_shrink_high = 0
  · simp [hc]
  · simp [hc, show 2 ≤ s.consec_shrink_high + 1 by omega]

/-- Any other scan clears the count and keeps the wait. -/
lemma lcasWaitAdapt_of_unsaturated (hw : 1000 < s.wait_time_us)
    (hh : nHotSocket ewma ≠ ewma.length) :
    lcasWaitAdapt false s ewma = ⟨s.wait_time_us, 0⟩ := by
  unfold lcasWaitAdapt
  rw [if_pos ⟨rfl, hw⟩]
  dsimp only
  rw [if_neg hh, if_neg (by omega)]

end WaitStep

/-- With `fix_wait` the wait never adapts. -/
lemma lcasWaitRun_fix_wait (W : ℕ) (scans : List (List (Option ℚ))) :
    lcasWaitRun true W scans = ⟨W, 0⟩ := by
  induction scans using List.reverseRecOn with
  | nil => rfl
  | append_singleton scans ewma ih =>
    rw [lcasWaitRun_append, ih, lcasWaitAdapt_of_frozen _ ewma (.inl rfl)]

/-- **The count of saturated scans.** The count is at most one, and when it is one, the wait
is above 1 ms and the last scan was saturated.

**Proof sketch.** Reverse induction on the scans. The count becomes one only on a saturated scan
that does not shrink the wait; a frozen adaptation keeps a count that, with `fix_wait`, is zero,
and without it needs a wait of at most 1 ms, which a count of one excludes. -/
lemma lcasWaitRun_count (fix_wait : Bool) (W : ℕ) (scans : List (List (Option ℚ))) :
    (lcasWaitRun fix_wait W scans).consec_shrink_high ≤ 1 ∧
      ((lcasWaitRun fix_wait W scans).consec_shrink_high = 1 →
        1000 < (lcasWaitRun fix_wait W scans).wait_time_us ∧
          ∃ pre ewma, scans = pre ++ [ewma] ∧ nHotSocket ewma = ewma.length) := by
  induction scans using List.reverseRecOn with
  | nil => exact ⟨zero_le_one, fun h => absurd h zero_ne_one⟩
  | append_singleton scans ewma ih =>
    rw [lcasWaitRun_append]
    set s := lcasWaitRun fix_wait W scans with hs
    by_cases hg : fix_wait = false ∧ 1000 < s.wait_time_us
    · obtain ⟨rfl, hw⟩ := hg
      by_cases hh : nHotSocket ewma = ewma.length
      · rw [lcasWaitAdapt_of_saturated s ewma hw hh]
        split_ifs with hc
        · exact ⟨le_rfl, fun _ => ⟨hw, scans, ewma, rfl, hh⟩⟩
        · exact ⟨zero_le_one, fun h => by simp at h⟩
      · rw [lcasWaitAdapt_of_unsaturated s ewma hw hh]
        exact ⟨zero_le_one, fun h => absurd h zero_ne_one⟩
    · -- frozen: a count of one comes with a wait above 1 ms, so `fix_wait` holds
      rw [lcasWaitAdapt_of_frozen s ewma (by cases fix_wait <;> simp_all)]
      refine ⟨ih.1, fun h1 => ?_⟩
      obtain ⟨hw, -⟩ := ih.2 h1
      cases fix_wait
      · exact absurd ⟨rfl, hw⟩ hg
      · rw [hs, lcasWaitRun_fix_wait] at h1
        cases h1

/-- **The wait shrinks only after two saturated scans in a row**: when the scan `ewma` after
the scans `scans` lowers the wait, it and the scan before it had every socket paired and at an
EWMA of at least `0.95`. -/
theorem lcasWaitRun_shrink_after_two (fix_wait : Bool) (W : ℕ) (scans : List (List (Option ℚ)))
    (ewma : List (Option ℚ))
    (h : (lcasWaitRun fix_wait W (scans ++ [ewma])).wait_time_us <
      (lcasWaitRun fix_wait W scans).wait_time_us) :
    nHotSocket ewma = ewma.length ∧
      ∃ pre e, scans = pre ++ [e] ∧ nHotSocket e = e.length := by
  rw [lcasWaitRun_append] at h
  set s := lcasWaitRun fix_wait W scans with hs
  have hcount := lcasWaitRun_count fix_wait W scans
  rw [← hs] at hcount
  by_cases hg : fix_wait = false ∧ 1000 < s.wait_time_us
  · obtain ⟨rfl, hw⟩ := hg
    by_cases hh : nHotSocket ewma = ewma.length
    · rw [lcasWaitAdapt_of_saturated s ewma hw hh] at h
      split_ifs at h with hc
      · exact absurd h (lt_irrefl _)
      · -- a shrink comes from a count of one, which the count lemma places on the scan before
        have h1 : s.consec_shrink_high = 1 := by
          have := hcount.1
          omega
        exact ⟨hh, (hcount.2 h1).2⟩
    · rw [lcasWaitAdapt_of_unsaturated s ewma hw hh] at h
      exact absurd h (lt_irrefl _)
  · rw [lcasWaitAdapt_of_frozen s ewma (by cases fix_wait <;> simp_all)] at h
    exact absurd h (lt_irrefl _)

/-- Two saturated scans of one socket take 1 ms off a wait of 3 ms. -/
theorem lcasWaitRun_shrink_after_two_three :
    (lcasWaitRun false 3000 ([[some 1]] ++ [[some 1]])).wait_time_us <
        (lcasWaitRun false 3000 [[some 1]]).wait_time_us ∧
      nHotSocket [some 1] = [some (1 : ℚ)].length ∧
        ∃ pre e, [[some (1 : ℚ)]] = pre ++ [e] ∧ nHotSocket e = e.length := by
  have h : (lcasWaitRun false 3000 ([[some 1]] ++ [[some 1]])).wait_time_us <
      (lcasWaitRun false 3000 [[some 1]]).wait_time_us := by decide +kernel
  exact ⟨h, lcasWaitRun_shrink_after_two false 3000 [[some 1]] [some 1] h⟩

/-- **Under saturation the wait shrinks by 1 ms every second scan**, down to at most 1 ms: `n`
scans with every socket paired and at an EWMA of at least `0.95` take the wait `-w` to `-w`
shrunk `n / 2` times. -/
theorem lcasWaitRun_saturated (W : ℕ) (scans : List (List (Option ℚ)))
    (hsat : ∀ ewma ∈ scans, nHotSocket ewma = ewma.length) :
    (lcasWaitRun false W scans).wait_time_us = shrinkWait^[scans.length / 2] W :=
  foldl_adapt_saturated (lcasWaitAdapt false) (fun e => nHotSocket e = e.length)
    (fun w e hw h => by rw [lcasWaitAdapt_of_saturated ⟨w, 0⟩ e hw h, if_pos rfl])
    (fun w e hw h => by rw [lcasWaitAdapt_of_saturated ⟨w, 1⟩ e hw h, if_neg one_ne_zero])
    (fun w e hw => lcasWaitAdapt_of_frozen ⟨w, 0⟩ e (.inr hw)) scans W hsat

/-- Four saturated scans of two sockets from a wait of 7 ms: two shrinks. -/
theorem lcasWaitRun_saturated_four :
    (∀ ewma ∈ [[some (1 : ℚ), some 1], [some 1, some 1], [some 1, some 1], [some 1, some 1]],
        nHotSocket ewma = ewma.length) ∧
      (lcasWaitRun false 7000
        [[some 1, some 1], [some 1, some 1], [some 1, some 1], [some 1, some 1]]).wait_time_us =
        shrinkWait^[4 / 2] 7000 := by
  have hsat : ∀ ewma ∈ [[some (1 : ℚ), some 1], [some 1, some 1], [some 1, some 1],
      [some 1, some 1]], nHotSocket ewma = ewma.length := by decide +kernel
  exact ⟨hsat, lcasWaitRun_saturated 7000 _ hsat⟩

end EvCache.Vset
