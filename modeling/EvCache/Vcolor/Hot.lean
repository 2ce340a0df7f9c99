import EvCache.Vcolor.Proc
import EvCache.Lib.CArray
import Mathlib

set_option autoImplicit false

/-!
# The hottest colour of `vcolor --vset`

With `--vset`, `vcolor` keeps measuring the eviction rate of every LLC colour and tells the
page-colour allocator which colour is hottest (`src/src/vcolor.c:721-792`). Each scan fills
`tmp` with the colours and their EWMA, sorts it with `qsort` and `cmp_hot`, and takes the top
entry as the candidate. The hottest colour changes only by hysteresis: the candidate must be
another colour, a `hot_level` or more above the hottest colour's current level, and stay so for
three scans in a row (`change_cnt`, `prev_cand`). The order from hottest to coldest
(`build_sorted_order`) is written whenever it changes, and the new hottest colour with it.

## Model

A scan is the list of per-colour EWMA values it ends with, as rationals. `qsort` is a
parameter: `cmp_hot` leaves the order of equal rates to the C library, and the results below
only use that it permutes the entries. `tmp`, `order` and `last_order` are stack arrays of
`VCOLOR_MAX_COLORS` entries (`vcolor.c:20`, the module's `vcolorMaxColors`), and `n_colors`
is `g_n_uncertain_l2_sets`, which nothing bounds: the fill loop writes through
`CArray.set` and faults once it leaves `tmp`. The other accesses are inside the arrays when
the fill succeeded. The writes to `/proc/vcolor_km` are events; whether they succeed is not
read. `drop_caches` and the printing are left out.

## Main definitions

* `EvCache.Vcolor.vsetStart`, `EvCache.Vcolor.vsetStep`, `EvCache.Vcolor.vsetRun` — the first
  scan, an iteration of the loop, and the loop.
* `EvCache.Vcolor.Qualifies` — a scan speaks for another colour against the hottest.
* `EvCache.Vcolor.WriteOk` — a write names the hottest colour first.

## Main results

* `EvCache.Vcolor.vsetStep_spec` — what an iteration does.
* `EvCache.Vcolor.vsetRun_reach` — for `0 < n_colors ≤ VCOLOR_MAX_COLORS` the loop never faults,
  and `change_cnt` counts the last scans that spoke for `prev_cand`.
* `EvCache.Vcolor.vsetLoop_hysteresis` — every write names the current hottest colour, every
  order is a permutation of the colours, and the hottest colour changes only after three
  scans in a row speak for the new one.
* `EvCache.Vcolor.vsetStart_overflow` — with more than `VCOLOR_MAX_COLORS` colours the first
  fill already writes past `tmp`.

## References

* `src/src/vcolor.c`, lines 20, 468-514 and 721-792.
-/

namespace EvCache.Vcolor

open CArray

/-! ## The loop -/

/-- `color_hot_t` (`vcolor.c:490-493`). -/
structure ColorHot where
  color : ℕ
  hot : ℚ
  deriving DecidableEq, Repr

/-- `hot_level` (`vcolor.c:478-488`): the range `[0-40)`, `[40-65)`, `[65-85)` or `[85-100]`
of a rate, in percent. -/
def hotLevel (h : ℚ) : ℤ :=
  let pct := h * 100
  if pct < 40 then 0 else if pct < 65 then 1 else if pct < 85 then 2 else 3

/-- The entries the fill loop writes: colour `i` with its EWMA, for `i < n_colors`. -/
def colorHots (n_colors : ℕ) (ewma : List ℚ) : List ColorHot :=
  (List.range n_colors).map fun i => ⟨i, ewma.getD i 0⟩

/-- The fill loop `tmp[i].color = i; tmp[i].hot = ctx.ewma[i]` (`vcolor.c:727-730`,
`750-753`) over the stack array `tmp`. -/
def fillTmp (n_colors : ℕ) (ewma : List ℚ) (tmp : List ColorHot) :
    Except Fault (List ColorHot) :=
  (List.range n_colors).foldlM (fun tmp (i : ℕ) => CArray.set tmp i ⟨i, ewma.getD i 0⟩) tmp

/-- `qsort(tmp, n_colors, sizeof(color_hot_t), cmp_hot)`: the first `n_colors` entries
rearranged. -/
def sortTmp (qsort : List ColorHot → List ColorHot) (n_colors : ℕ) (tmp : List ColorHot) :
    List ColorHot :=
  qsort (tmp.take n_colors) ++ tmp.drop n_colors

/-- `tmp[0]`. -/
def topOf (tmp : List ColorHot) : ColorHot := tmp.getD 0 ⟨0, 0⟩

/-- The loop of `build_sorted_order` (`vcolor.c:508-513`) from entry `sorted[i]` on, with the
next free place `idx` of `order`. -/
def sortedOrderLoop (n_colors hottest : ℕ) : List ColorHot → ℕ → List ℕ → List ℕ
  | [], _, order => order
  | c :: sorted, idx, order =>
    if idx < n_colors then
      if c.color = hottest then sortedOrderLoop n_colors hottest sorted idx order
      else sortedOrderLoop n_colors hottest sorted (idx + 1) (order.set idx c.color)
    else order

/-- `build_sorted_order(sorted, n_colors, hottest, order)` (`vcolor.c:504-514`): `hottest`
first, then the other colours in sorted order. -/
def buildSortedOrder (sorted : List ColorHot) (n_colors hottest : ℕ) (order : List ℕ) :
    List ℕ :=
  sortedOrderLoop n_colors hottest (sorted.take n_colors) 1 (order.set 0 hottest)

/-- A write of the loop to `/proc/vcolor_km`: `write_order(order, n_colors)`, which writes
the first `n_colors` entries of `order`, or `write_hot(c)`. -/
inductive ProcWrite where
  | order (colors : List ℕ)
  | hot (color : ℕ)
  deriving DecidableEq, Repr

/-- The variables the loop carries from scan to scan. -/
structure VsetState where
  tmp : List ColorHot
  order : List ℕ
  last_order : List ℕ
  hottest : ℕ
  change_cnt : ℤ
  prev_cand : ℕ
  deriving DecidableEq, Repr

/-- The first scan and the writes before the loop (`vcolor.c:721-745`), from the
uninitialised stack arrays `tmp`, `order` and `last_order`. -/
def vsetStart (qsort : List ColorHot → List ColorHot) (n_colors : ℕ) (tmp : List ColorHot)
    (order last_order : List ℕ) (ewma : List ℚ) : Except Fault (VsetState × List ProcWrite) := do
  let tmp ← fillTmp n_colors ewma tmp
  let tmp := sortTmp qsort n_colors tmp
  let hottest := (topOf tmp).color
  let order := buildSortedOrder tmp n_colors hottest order
  let last_order ← CArray.copy last_order order n_colors
  pure (⟨tmp, order, last_order, hottest, 0, hottest⟩,
    [.order (order.take n_colors), .hot hottest])

/-- `change_cnt` and `prev_cand` after a scan whose top colour is `cand` (`vcolor.c:760-770`). -/
def candStep (qualifies : Bool) (cand prev_cand : ℕ) (change_cnt : ℤ) : ℤ × ℕ :=
  if qualifies then
    if cand = prev_cand then (change_cnt + 1, prev_cand) else (1, cand)
  else (0, cand)

/-- An iteration of the loop (`vcolor.c:748-786`) on a scan ending at `ewma`, with its writes. -/
def vsetStep (qsort : List ColorHot → List ColorHot) (n_colors : ℕ) (s : VsetState)
    (ewma : List ℚ) : Except Fault (VsetState × List ProcWrite) := do
  let tmp ← fillTmp n_colors ewma s.tmp
  let tmp := sortTmp qsort n_colors tmp
  let cand := (topOf tmp).color
  let cand_lvl := hotLevel (topOf tmp).hot
  let hot_lvl_now := hotLevel (ewma.getD s.hottest 0)
  let cnt := candStep (decide (cand ≠ s.hottest ∧ 1 ≤ cand_lvl - hot_lvl_now)) cand s.prev_cand
    s.change_cnt
  if 3 ≤ cnt.1 then
    let order := buildSortedOrder tmp n_colors cand s.order
    let last_order ← CArray.copy s.last_order order n_colors
    pure (⟨tmp, order, last_order, cand, 0, cand⟩, [.order (order.take n_colors), .hot cand])
  else
    let order := buildSortedOrder tmp n_colors s.hottest s.order
    -- `memcmp(order, last_order, sizeof(u32) * ctx.n_colors)`
    if order.take n_colors ≠ s.last_order.take n_colors then
      let last_order ← CArray.copy s.last_order order n_colors
      pure (⟨tmp, order, last_order, s.hottest, cnt.1, cnt.2⟩, [.order (order.take n_colors)])
    else pure (⟨tmp, order, s.last_order, s.hottest, cnt.1, cnt.2⟩, [])

/-- The state after the first scan `ewma₀` and the loop over the scans `scans`. -/
def vsetRun (qsort : List ColorHot → List ColorHot) (n_colors : ℕ) (tmp : List ColorHot)
    (order last_order : List ℕ) (ewma₀ : List ℚ) (scans : List (List ℚ)) :
    Except Fault VsetState := do
  let start ← vsetStart qsort n_colors tmp order last_order ewma₀
  scans.foldlM (fun s ewma => do
    let next ← vsetStep qsort n_colors s ewma
    pure next.1) start.1

lemma vsetRun_append (qsort : List ColorHot → List ColorHot) (n_colors : ℕ)
    (tmp : List ColorHot) (order last_order : List ℕ) (ewma₀ : List ℚ)
    (scans : List (List ℚ)) (ewma : List ℚ) :
    vsetRun qsort n_colors tmp order last_order ewma₀ (scans ++ [ewma]) =
      (vsetRun qsort n_colors tmp order last_order ewma₀ scans >>= fun s =>
        vsetStep qsort n_colors s ewma >>= fun next => (pure next.1 : Except Fault VsetState)) := by
  simp [vsetRun, List.foldlM_append]

/-! ## The specification -/

/-- A write is well formed for the hottest colour `h`: an order is a permutation of the
colours led by `h`, and `write_hot` names `h`. -/
def WriteOk (n_colors h : ℕ) : ProcWrite → Prop
  | .order colors => colors.Perm (List.range n_colors) ∧ colors.head? = some h
  | .hot c => c = h

/-- The top entry of a scan after sorting. -/
def scanTop (qsort : List ColorHot → List ColorHot) (n_colors : ℕ) (ewma : List ℚ) :
    ColorHot :=
  topOf (qsort (colorHots n_colors ewma))

/-- **A scan speaks for colour `c` against the hottest colour `h`**: `c` is on top after
sorting, it is not `h`, and its `hot_level` is at least one above that of `h`. -/
def Qualifies (qsort : List ColorHot → List ColorHot) (n_colors : ℕ) (ewma : List ℚ)
    (c h : ℕ) : Prop :=
  (scanTop qsort n_colors ewma).color = c ∧ c ≠ h ∧
    hotLevel (ewma.getD h 0) + 1 ≤ hotLevel (ewma.getD c 0)

/-- The shape of the loop's state: the three arrays keep their `VCOLOR_MAX_COLORS` entries,
and the hottest colour is a colour. -/
structure VsetInv (n_colors : ℕ) (s : VsetState) : Prop where
  tmp_length : s.tmp.length = vcolorMaxColors
  order_length : s.order.length = vcolorMaxColors
  last_length : s.last_order.length = vcolorMaxColors
  hottest_lt : s.hottest < n_colors

/-- **The count of scans for the candidate.** `change_cnt` is at most two, and the last
`change_cnt` scans all spoke for `prev_cand` against the hottest colour. -/
structure CountInv (qsort : List ColorHot → List ColorHot) (n_colors : ℕ)
    (scans : List (List ℚ)) (s : VsetState) : Prop where
  nonneg : 0 ≤ s.change_cnt
  le_two : s.change_cnt ≤ 2
  recent : ∃ pre last, scans = pre ++ last ∧ (last.length : ℤ) = s.change_cnt ∧
    ∀ ewma ∈ last, Qualifies qsort n_colors ewma s.prev_cand s.hottest

/-- What an iteration does to `hottest`, `change_cnt` and `prev_cand`: `candStep` on the
scan's top colour, and the switch to it once the count reaches three. -/
def candAfter (qsort : List ColorHot → List ColorHot) (n_colors : ℕ) (s : VsetState)
    (ewma : List ℚ) : ℕ × ℤ × ℕ :=
  let top := scanTop qsort n_colors ewma
  let cnt := candStep (decide (top.color ≠ s.hottest ∧
    1 ≤ hotLevel top.hot - hotLevel (ewma.getD s.hottest 0))) top.color s.prev_cand s.change_cnt
  if 3 ≤ cnt.1 then (top.color, 0, top.color) else (s.hottest, cnt.1, cnt.2)

/-! ## The fill and the order -/

@[simp] lemma length_colorHots (n_colors : ℕ) (ewma : List ℚ) :
    (colorHots n_colors ewma).length = n_colors := by
  simp [colorHots]

lemma colorHots_succ (n : ℕ) (ewma : List ℚ) :
    colorHots (n + 1) ewma = colorHots n ewma ++ [⟨n, ewma.getD n 0⟩] := by
  simp [colorHots, List.range_succ]

@[simp] lemma map_color_colorHots (n_colors : ℕ) (ewma : List ℚ) :
    (colorHots n_colors ewma).map ColorHot.color = List.range n_colors := by
  simp [colorHots, Function.comp_def]

lemma mem_colorHots {n_colors : ℕ} {ewma : List ℚ} {x : ColorHot}
    (hx : x ∈ colorHots n_colors ewma) : x.color < n_colors ∧ x.hot = ewma.getD x.color 0 := by
  obtain ⟨i, hi, rfl⟩ := List.mem_map.mp hx
  exact ⟨List.mem_range.mp hi, rfl⟩

/-- The fill inside `tmp` writes the colours and their rates at its front. -/
lemma fillTmp_of_le (ewma : List ℚ) (tmp : List ColorHot) :
    ∀ n_colors ≤ tmp.length,
      fillTmp n_colors ewma tmp = .ok (colorHots n_colors ewma ++ tmp.drop n_colors) := by
  intro n_colors
  induction n_colors with
  | zero => intro _; rfl
  | succ n ih =>
    intro hn
    have hlt : n < (colorHots n ewma ++ tmp.drop n).length := by simp; omega
    have hdrop : tmp.drop n = tmp[n] :: tmp.drop (n + 1) := List.drop_eq_getElem_cons (by omega)
    rw [fillTmp, List.range_succ, List.foldlM_append, ← fillTmp, ih (by omega), ok_bind,
      List.foldlM_cons, set_of_lt hlt, ok_bind, List.foldlM_nil, hdrop,
      List.set_append_right _ _ (by simp), length_colorHots, Nat.sub_self, List.set_cons_zero,
      colorHots_succ, List.append_assoc, List.singleton_append]
    rfl

/-- **With more colours than entries, the fill writes past `tmp`.** -/
lemma fillTmp_of_lt (ewma : List ℚ) (tmp : List ColorHot) {n_colors : ℕ}
    (hn : tmp.length < n_colors) :
    fillTmp n_colors ewma tmp = .error (.outOfBounds tmp.length tmp.length) := by
  obtain ⟨k, rfl⟩ : ∃ k, n_colors = tmp.length + 1 + k := ⟨n_colors - tmp.length - 1, by omega⟩
  have hout : CArray.set (colorHots tmp.length ewma ++ tmp.drop tmp.length) tmp.length
      ⟨tmp.length, ewma.getD tmp.length 0⟩ = .error (.outOfBounds tmp.length tmp.length) := by
    simp [CArray.set, CArray.get]
  rw [fillTmp, List.range_add, List.foldlM_append, List.range_succ, List.foldlM_append,
    ← fillTmp, fillTmp_of_le ewma tmp _ le_rfl, ok_bind, List.foldlM_cons, hout]
  rfl

/-- After the fill, sorting reorders the colours and keeps the rest of `tmp`. -/
lemma sortTmp_fill (qsort : List ColorHot → List ColorHot) {n_colors : ℕ} (ewma : List ℚ)
    (tmp : List ColorHot) :
    sortTmp qsort n_colors (colorHots n_colors ewma ++ tmp.drop n_colors) =
      qsort (colorHots n_colors ewma) ++ tmp.drop n_colors := by
  simp [sortTmp]

@[simp] lemma length_sortedOrderLoop (n_colors hottest : ℕ) :
    ∀ (sorted : List ColorHot) (idx : ℕ) (order : List ℕ),
      (sortedOrderLoop n_colors hottest sorted idx order).length = order.length
  | [], _, _ => rfl
  | c :: sorted, idx, order => by
    unfold sortedOrderLoop
    split_ifs
    · exact length_sortedOrderLoop n_colors hottest sorted idx order
    · rw [length_sortedOrderLoop n_colors hottest sorted (idx + 1), List.length_set]
    · rfl

@[simp] lemma length_buildSortedOrder (sorted : List ColorHot) (n_colors hottest : ℕ)
    (order : List ℕ) : (buildSortedOrder sorted n_colors hottest order).length = order.length := by
  simp [buildSortedOrder]

lemma take_succ_set {order : List ℕ} {idx : ℕ} (h : idx < order.length) (x : ℕ) :
    (order.set idx x).take (idx + 1) = order.take idx ++ [x] := by
  rw [List.take_set, List.take_add_one, List.getElem?_eq_getElem h, Option.toList_some,
    List.set_append_right _ _ (by simp), List.length_take_of_le (by omega), Nat.sub_self]
  rfl

/-- **The loop of `build_sorted_order`** fills the places from `idx` to `n_colors` with the
colours of `sorted` other than `hottest`, in order, when there are just enough of them.

**Proof sketch.** Induction on `sorted`: the hottest colour is skipped, any other is written
at `idx`, and the loop stops with `idx = n_colors` when none is left. -/
lemma sortedOrderLoop_take (n_colors hottest : ℕ) :
    ∀ (sorted : List ColorHot) (idx : ℕ) (order : List ℕ), idx ≤ n_colors →
      n_colors ≤ order.length →
      ((sorted.map ColorHot.color).filter (· != hottest)).length = n_colors - idx →
      (sortedOrderLoop n_colors hottest sorted idx order).take n_colors =
        order.take idx ++ (sorted.map ColorHot.color).filter (· != hottest) := by
  intro sorted
  induction sorted with
  | nil =>
    intro idx order hidx _ hcnt
    simp only [List.map_nil, List.filter_nil, List.length_nil] at hcnt
    rw [sortedOrderLoop, show idx = n_colors by omega, List.map_nil, List.filter_nil,
      List.append_nil]
  | cons c sorted ih =>
    intro idx order hidx hlen hcnt
    by_cases hc : c.color = hottest
    · have hskip : ((c :: sorted).map ColorHot.color).filter (· != hottest) =
          (sorted.map ColorHot.color).filter (· != hottest) := by simp [hc]
      rw [hskip] at hcnt ⊢
      by_cases hi : idx < n_colors
      · rw [sortedOrderLoop, if_pos hi, if_pos hc]
        exact ih idx order hidx hlen hcnt
      · rw [sortedOrderLoop, if_neg hi, show idx = n_colors by omega]
        have hnil : (sorted.map ColorHot.color).filter (· != hottest) = [] :=
          List.eq_nil_of_length_eq_zero (by omega)
        rw [hnil, List.append_nil]
    · have hkeep : ((c :: sorted).map ColorHot.color).filter (· != hottest) =
          c.color :: (sorted.map ColorHot.color).filter (· != hottest) := by simp [hc]
      rw [hkeep] at hcnt ⊢
      simp only [List.length_cons] at hcnt
      have hi : idx < n_colors := by omega
      rw [sortedOrderLoop, if_pos hi, if_neg hc,
        ih (idx + 1) (order.set idx c.color) (by omega) (by simpa using hlen) (by omega),
        take_succ_set (by omega), List.append_assoc, List.singleton_append]

/-- The colours of a sorted scan are the colours, once each. -/
lemma colors_qsort_perm {qsort : List ColorHot → List ColorHot}
    (hq : ∀ l, (qsort l).Perm l) (n_colors : ℕ) (ewma : List ℚ) :
    ((qsort (colorHots n_colors ewma)).map ColorHot.color).Perm (List.range n_colors) := by
  simpa using (hq (colorHots n_colors ewma)).map ColorHot.color

/-- **The order `build_sorted_order` writes**: the hottest colour, then the others in sorted
order. -/
lemma buildSortedOrder_take {qsort : List ColorHot → List ColorHot}
    (hq : ∀ l, (qsort l).Perm l) {n_colors hottest : ℕ} (hh : hottest < n_colors)
    (ewma : List ℚ) (rest : List ColorHot) {order : List ℕ} (hlen : n_colors ≤ order.length) :
    (buildSortedOrder (qsort (colorHots n_colors ewma) ++ rest) n_colors hottest order).take
        n_colors =
      hottest :: ((qsort (colorHots n_colors ewma)).map ColorHot.color).filter (· != hottest) := by
  have hperm := colors_qsort_perm hq n_colors ewma
  have hlenq : (qsort (colorHots n_colors ewma)).length = n_colors := by
    simpa using (hq (colorHots n_colors ewma)).length_eq
  -- the other colours are the erasure of `hottest` from a list without repeats
  have hcnt : (((qsort (colorHots n_colors ewma)).map ColorHot.color).filter
      (· != hottest)).length = n_colors - 1 := by
    rw [← List.Nodup.erase_eq_filter (hperm.nodup_iff.mpr List.nodup_range),
      List.length_erase_of_mem (hperm.mem_iff.mpr (List.mem_range.mpr hh))]
    simp [hlenq]
  have htake : (qsort (colorHots n_colors ewma) ++ rest).take n_colors =
      qsort (colorHots n_colors ewma) := by
    rw [List.take_append_of_le_length (by omega), List.take_of_length_le (by omega)]
  unfold buildSortedOrder
  rw [htake, sortedOrderLoop_take n_colors hottest _ 1 _ (by omega) (by simpa using hlen) hcnt,
    List.take_one]
  cases order with
  | nil => simp at hlen; omega
  | cons o order => rfl

/-- That order is a well-formed write for the hottest colour. -/
lemma writeOk_buildSortedOrder {qsort : List ColorHot → List ColorHot}
    (hq : ∀ l, (qsort l).Perm l) {n_colors hottest : ℕ} (hh : hottest < n_colors)
    (ewma : List ℚ) (rest : List ColorHot) {order : List ℕ} (hlen : n_colors ≤ order.length) :
    WriteOk n_colors hottest
      (.order ((buildSortedOrder (qsort (colorHots n_colors ewma) ++ rest) n_colors hottest
        order).take n_colors)) := by
  have hperm := colors_qsort_perm hq n_colors ewma
  have hmem := hperm.mem_iff.mpr (List.mem_range.mpr hh)
  rw [buildSortedOrder_take hq hh ewma rest hlen, WriteOk,
    ← List.Nodup.erase_eq_filter (hperm.nodup_iff.mpr List.nodup_range)]
  exact ⟨(List.perm_cons_erase hmem).symm.trans hperm, rfl⟩

/-- The top of a sorted scan is a colour with its own rate. -/
lemma scanTop_mem {qsort : List ColorHot → List ColorHot} (hq : ∀ l, (qsort l).Perm l)
    {n_colors : ℕ} (hn : 0 < n_colors) (ewma : List ℚ) :
    (scanTop qsort n_colors ewma).color < n_colors ∧
      (scanTop qsort n_colors ewma).hot = ewma.getD (scanTop qsort n_colors ewma).color 0 := by
  have hlen : 0 < (qsort (colorHots n_colors ewma)).length := by
    rw [(hq _).length_eq]; simpa using hn
  apply mem_colorHots
  rw [← (hq (colorHots n_colors ewma)).mem_iff, scanTop, topOf, List.getD_eq_getElem _ _ hlen]
  exact List.getElem_mem hlen

lemma topOf_append {qsort : List ColorHot → List ColorHot} (hq : ∀ l, (qsort l).Perm l)
    {n_colors : ℕ} (hn : 0 < n_colors) (ewma : List ℚ) (rest : List ColorHot) :
    topOf (qsort (colorHots n_colors ewma) ++ rest) = scanTop qsort n_colors ewma := by
  have hlen : 0 < (qsort (colorHots n_colors ewma)).length := by
    rw [(hq _).length_eq]; simpa using hn
  simp [scanTop, topOf, List.getD_eq_getElem?_getD, List.getElem?_append_left hlen]

/-! ## One iteration -/

section Step

variable {qsort : List ColorHot → List ColorHot} (hq : ∀ l, (qsort l).Perm l) {n_colors : ℕ}
  (hn : 0 < n_colors) (hn16 : n_colors ≤ vcolorMaxColors)

include hq in
lemma length_sortTmp_fill (ewma : List ℚ) {tmp : List ColorHot} (h : n_colors ≤ tmp.length) :
    (qsort (colorHots n_colors ewma) ++ tmp.drop n_colors).length = tmp.length := by
  rw [List.length_append, (hq _).length_eq, length_colorHots, List.length_drop]
  omega

include hq hn in
/-- The decision of an iteration is the scan speaking for its top colour. -/
lemma qualifies_iff (ewma : List ℚ) (h : ℕ) :
    Qualifies qsort n_colors ewma (scanTop qsort n_colors ewma).color h ↔
      ((scanTop qsort n_colors ewma).color ≠ h ∧
        1 ≤ hotLevel (scanTop qsort n_colors ewma).hot - hotLevel (ewma.getD h 0)) := by
  rw [Qualifies, (scanTop_mem hq hn ewma).2]
  constructor
  · rintro ⟨-, hne, hlvl⟩
    exact ⟨hne, by omega⟩
  · rintro ⟨hne, hlvl⟩
    exact ⟨rfl, hne, by omega⟩

include hq hn hn16 in
/-- **The first scan** writes the order and the hottest colour, which it takes from the top of
the sorted scan. -/
lemma vsetStart_spec (tmp : List ColorHot) (order last_order : List ℕ)
    (hlen : tmp.length = vcolorMaxColors ∧ order.length = vcolorMaxColors ∧
      last_order.length = vcolorMaxColors) (ewma : List ℚ) :
    ∃ s ws, vsetStart qsort n_colors tmp order last_order ewma = .ok (s, ws) ∧
      VsetInv n_colors s ∧ CountInv qsort n_colors [] s ∧ ∀ w ∈ ws, WriteOk n_colors s.hottest w := by
  obtain ⟨htmp, horder, hlast⟩ := hlen
  have hh := (scanTop_mem hq hn ewma).1
  unfold vsetStart
  rw [fillTmp_of_le ewma tmp n_colors (by omega), ok_bind, sortTmp_fill]
  dsimp only
  rw [topOf_append hq hn, copy_of_le (by omega) (by simp; omega), ok_bind]
  refine ⟨_, _, rfl, ⟨?_, by simpa using horder, by simp; omega, hh⟩,
    ⟨le_rfl, by norm_num, [], [], rfl, rfl, by simp⟩, ?_⟩
  · rw [length_sortTmp_fill hq ewma (by omega), htmp]
  · intro w hw
    simp only [List.mem_cons, List.not_mem_nil, or_false] at hw
    rcases hw with rfl | rfl
    · exact writeOk_buildSortedOrder hq hh ewma _ (by omega)
    · rfl

include hq hn hn16 in
/-- **What an iteration does**: it never faults, keeps the shape of the state, writes only
orders and colours led by the new hottest colour, and moves `hottest`, `change_cnt` and
`prev_cand` as `candStep` and the test `change_cnt >= 3` say. -/
lemma vsetStep_spec (s : VsetState) (hs : VsetInv n_colors s) (ewma : List ℚ) :
    ∃ s' ws, vsetStep qsort n_colors s ewma = .ok (s', ws) ∧ VsetInv n_colors s' ∧
      (∀ w ∈ ws, WriteOk n_colors s'.hottest w) ∧
      (s'.hottest, s'.change_cnt, s'.prev_cand) = candAfter qsort n_colors s ewma := by
  have htop := scanTop_mem hq hn ewma
  have htmp : n_colors ≤ s.tmp.length := by rw [hs.tmp_length]; exact hn16
  have hlen' : (qsort (colorHots n_colors ewma) ++ s.tmp.drop n_colors).length =
      vcolorMaxColors := by
    rw [length_sortTmp_fill hq ewma htmp, hs.tmp_length]
  have horder : n_colors ≤ s.order.length := by rw [hs.order_length]; exact hn16
  have hlast : n_colors ≤ s.last_order.length := by rw [hs.last_length]; exact hn16
  unfold vsetStep candAfter
  rw [fillTmp_of_le ewma s.tmp n_colors htmp, ok_bind, sortTmp_fill]
  dsimp only
  rw [topOf_append hq hn]
  split_ifs with h3 hne
  · -- the candidate becomes the hottest colour
    rw [copy_of_le hlast (by rwa [length_buildSortedOrder]), ok_bind]
    refine ⟨_, _, rfl, ⟨hlen', by rw [length_buildSortedOrder, hs.order_length],
      by simp [hs.last_length, hs.order_length]; omega, htop.1⟩, ?_, rfl⟩
    intro w hw
    simp only [List.mem_cons, List.not_mem_nil, or_false] at hw
    rcases hw with rfl | rfl
    · exact writeOk_buildSortedOrder hq htop.1 ewma _ horder
    · rfl
  · -- the order changed: it is written
    rw [copy_of_le hlast (by rwa [length_buildSortedOrder]), ok_bind]
    refine ⟨_, _, rfl, ⟨hlen', by rw [length_buildSortedOrder, hs.order_length],
      by simp [hs.last_length, hs.order_length]; omega, hs.hottest_lt⟩, ?_, rfl⟩
    intro w hw
    simp only [List.mem_cons, List.not_mem_nil, or_false] at hw
    subst hw
    exact writeOk_buildSortedOrder hq hs.hottest_lt ewma _ horder
  · exact ⟨_, _, rfl, ⟨hlen', by rw [length_buildSortedOrder, hs.order_length], hs.last_length,
      hs.hottest_lt⟩, by simp, rfl⟩

end Step

/-! ## The count of scans for the candidate -/

section Count

variable {qsort : List ColorHot → List ColorHot} (hq : ∀ l, (qsort l).Perm l) {n_colors : ℕ}
  (hn : 0 < n_colors)

/-- The three branches of `candStep`. -/
lemma candStep_cases (q : Bool) (cand prev_cand : ℕ) (change_cnt : ℤ) :
    (q = true ∧ cand = prev_cand ∧
        candStep q cand prev_cand change_cnt = (change_cnt + 1, prev_cand)) ∨
      (q = true ∧ cand ≠ prev_cand ∧ candStep q cand prev_cand change_cnt = (1, cand)) ∨
      (q = false ∧ candStep q cand prev_cand change_cnt = (0, cand)) := by
  unfold candStep
  cases q
  · simp
  · by_cases h : cand = prev_cand <;> simp [h]

include hq hn in
/-- **An iteration keeps the count of scans for the candidate.**

**Proof sketch.** By the branches of `candStep`: a scan for the same candidate extends the run
of scans by one, or switches the hottest colour and starts afresh; a scan for another
candidate starts a run of one; any other scan a run of none. -/
lemma countInv_step {scans : List (List ℚ)} {s s' : VsetState}
    (hi : CountInv qsort n_colors scans s) (ewma : List ℚ)
    (hst : (s'.hottest, s'.change_cnt, s'.prev_cand) = candAfter qsort n_colors s ewma) :
    CountInv qsort n_colors (scans ++ [ewma]) s' := by
  unfold candAfter at hst
  dsimp only at hst
  set top := scanTop qsort n_colors ewma with htop
  obtain ⟨pre, last, hsc, hl, hall⟩ := hi.recent
  rcases candStep_cases (decide (top.color ≠ s.hottest ∧
      1 ≤ hotLevel top.hot - hotLevel (ewma.getD s.hottest 0))) top.color s.prev_cand
      s.change_cnt with ⟨hQ, hcp, hc⟩ | ⟨hQ, hcp, hc⟩ | ⟨-, hc⟩
  · have hq' : Qualifies qsort n_colors ewma s.prev_cand s.hottest :=
      hcp ▸ (qualifies_iff hq hn ewma s.hottest).mpr (of_decide_eq_true hQ)
    rw [hc] at hst
    dsimp only at hst
    by_cases h3 : 3 ≤ s.change_cnt + 1
    · rw [if_pos h3, Prod.mk.injEq, Prod.mk.injEq] at hst
      obtain ⟨-, h2, -⟩ := hst
      exact ⟨by omega, by omega, scans ++ [ewma], [], by simp, by simp [h2], by simp⟩
    · rw [if_neg h3, Prod.mk.injEq, Prod.mk.injEq] at hst
      obtain ⟨h1, h2, h3'⟩ := hst
      refine ⟨by have := hi.nonneg; omega, by omega, pre, last ++ [ewma],
        by rw [hsc, List.append_assoc], by simp [hl, h2], ?_⟩
      intro x hx
      rw [h1, h3']
      rcases List.mem_append.mp hx with hx | hx
      · exact hall x hx
      · rwa [List.mem_singleton.mp hx]
  · have hq' : Qualifies qsort n_colors ewma top.color s.hottest :=
      (qualifies_iff hq hn ewma s.hottest).mpr (of_decide_eq_true hQ)
    rw [hc] at hst
    dsimp only at hst
    rw [if_neg (by norm_num), Prod.mk.injEq, Prod.mk.injEq] at hst
    obtain ⟨h1, h2, h3'⟩ := hst
    refine ⟨by omega, by omega, scans, [ewma], rfl, by simp [h2], ?_⟩
    intro x hx
    rw [List.mem_singleton.mp hx, h1, h3']
    exact hq'
  · rw [hc] at hst
    dsimp only at hst
    rw [if_neg (by norm_num), Prod.mk.injEq, Prod.mk.injEq] at hst
    obtain ⟨-, h2, -⟩ := hst
    exact ⟨by omega, by omega, scans ++ [ewma], [], by simp, by simp [h2], by simp⟩

include hq hn in
/-- **The hottest colour changes only after three scans in a row speak for the new one.** -/
lemma countInv_hottest_change {scans : List (List ℚ)} {s s' : VsetState}
    (hi : CountInv qsort n_colors scans s) (ewma : List ℚ)
    (hst : (s'.hottest, s'.change_cnt, s'.prev_cand) = candAfter qsort n_colors s ewma)
    (hne : s'.hottest ≠ s.hottest) :
    ∃ pre e₁ e₂, scans = pre ++ [e₁, e₂] ∧
      ∀ x ∈ [e₁, e₂, ewma], Qualifies qsort n_colors x s'.hottest s.hottest := by
  unfold candAfter at hst
  dsimp only at hst
  set top := scanTop qsort n_colors ewma with htop
  rcases candStep_cases (decide (top.color ≠ s.hottest ∧
      1 ≤ hotLevel top.hot - hotLevel (ewma.getD s.hottest 0))) top.color s.prev_cand
      s.change_cnt with ⟨hQ, hcp, hc⟩ | ⟨-, -, hc⟩ | ⟨-, hc⟩
  · rw [hc] at hst
    dsimp only at hst
    by_cases h3 : 3 ≤ s.change_cnt + 1
    · rw [if_pos h3, Prod.mk.injEq] at hst
      -- the count was two: the two scans before this one spoke for the candidate
      obtain ⟨pre, last, hsc, hl, hall⟩ := hi.recent
      have hlen : last.length = 2 := by have := hi.le_two; omega
      obtain ⟨e₁, e₂, rfl⟩ := List.length_eq_two.mp hlen
      refine ⟨pre, e₁, e₂, hsc, ?_⟩
      intro x hx
      rw [hst.1, hcp]
      simp only [List.mem_cons, List.not_mem_nil, or_false] at hx
      rcases hx with rfl | rfl | rfl
      · exact hall x (by simp)
      · exact hall x (by simp)
      · exact hcp ▸ (qualifies_iff hq hn x s.hottest).mpr (of_decide_eq_true hQ)
    · rw [if_neg h3, Prod.mk.injEq] at hst
      exact absurd hst.1 hne
  · rw [hc] at hst
    dsimp only at hst
    rw [if_neg (by norm_num), Prod.mk.injEq] at hst
    exact absurd hst.1 hne
  · rw [hc] at hst
    dsimp only at hst
    rw [if_neg (by norm_num), Prod.mk.injEq] at hst
    exact absurd hst.1 hne

end Count

/-! ## Runs of the loop -/

section Run

variable {qsort : List ColorHot → List ColorHot} (hq : ∀ l, (qsort l).Perm l) {n_colors : ℕ}

include hq in
/-- **The loop never faults**, for `0 < n_colors ≤ VCOLOR_MAX_COLORS`, and after any scans
`change_cnt` counts the last scans that spoke for `prev_cand`. -/
theorem vsetRun_reach (hn : 0 < n_colors) (hn16 : n_colors ≤ vcolorMaxColors)
    (tmp : List ColorHot) (order last_order : List ℕ)
    (hlen : tmp.length = vcolorMaxColors ∧ order.length = vcolorMaxColors ∧
      last_order.length = vcolorMaxColors) (ewma₀ : List ℚ) (scans : List (List ℚ)) :
    ∃ s, vsetRun qsort n_colors tmp order last_order ewma₀ scans = .ok s ∧
      VsetInv n_colors s ∧ CountInv qsort n_colors scans s := by
  induction scans using List.reverseRecOn with
  | nil =>
    obtain ⟨s, ws, hstart, hinv, hcount, -⟩ :=
      vsetStart_spec hq hn hn16 tmp order last_order hlen ewma₀
    exact ⟨s, by simp [vsetRun, hstart], hinv, hcount⟩
  | append_singleton scans ewma ih =>
    obtain ⟨s, hrun, hinv, hcount⟩ := ih
    obtain ⟨s', ws, hstep, hinv', -, hst⟩ := vsetStep_spec hq hn hn16 s hinv ewma
    refine ⟨s', ?_, hinv', countInv_step hq hn hcount ewma hst⟩
    rw [vsetRun_append, hrun, ok_bind, hstep, ok_bind]
    rfl

include hq in
/-- **The hysteresis of the hottest colour.** For `2 ≤ n_colors ≤ VCOLOR_MAX_COLORS` and any
scans: the first writes name the hottest colour, and at every later scan the loop does not
fault, every order it writes is a permutation of the colours led by the current hottest
colour, `write_hot` names it, and the hottest colour changes from `h` to `c` only when this
scan and the two before it all had `c` on top, not `h`, a level or more above `h`. -/
theorem vsetLoop_hysteresis (hn : 2 ≤ n_colors) (hn16 : n_colors ≤ vcolorMaxColors)
    (tmp : List ColorHot) (order last_order : List ℕ)
    (hlen : tmp.length = vcolorMaxColors ∧ order.length = vcolorMaxColors ∧
      last_order.length = vcolorMaxColors) (ewma₀ : List ℚ) :
    (∃ s ws, vsetStart qsort n_colors tmp order last_order ewma₀ = .ok (s, ws) ∧
      ∀ w ∈ ws, WriteOk n_colors s.hottest w) ∧
    ∀ (scans : List (List ℚ)) (ewma : List ℚ), ∃ s s' ws,
      vsetRun qsort n_colors tmp order last_order ewma₀ scans = .ok s ∧
      vsetStep qsort n_colors s ewma = .ok (s', ws) ∧
      (∀ w ∈ ws, WriteOk n_colors s'.hottest w) ∧
      (s'.hottest ≠ s.hottest → ∃ pre e₁ e₂, scans = pre ++ [e₁, e₂] ∧
        ∀ x ∈ [e₁, e₂, ewma], Qualifies qsort n_colors x s'.hottest s.hottest) := by
  have hn0 : 0 < n_colors := by omega
  refine ⟨?_, fun scans ewma => ?_⟩
  · obtain ⟨s, ws, hstart, -, -, hw⟩ := vsetStart_spec hq hn0 hn16 tmp order last_order hlen ewma₀
    exact ⟨s, ws, hstart, hw⟩
  · obtain ⟨s, hrun, hinv, hcount⟩ :=
      vsetRun_reach hq hn0 hn16 tmp order last_order hlen ewma₀ scans
    obtain ⟨s', ws, hstep, -, hw, hst⟩ := vsetStep_spec hq hn0 hn16 s hinv ewma
    exact ⟨s, s', ws, hrun, hstep, hw, countInv_hottest_change hq hn0 hcount ewma hst⟩

end Run

/-- A sort of `tmp` by `cmp_hot`, hottest first. -/
def sortHot : List ColorHot → List ColorHot := List.insertionSort fun a b => b.hot ≤ a.hot

/-- Two colours, colour `0` hot at the first scan, two later scans and a third. -/
theorem vsetLoop_hysteresis_two :
    (∃ s ws, vsetStart sortHot 2 (List.replicate 16 ⟨0, 0⟩) (List.replicate 16 0)
        (List.replicate 16 0) [1, 0] = .ok (s, ws) ∧ ∀ w ∈ ws, WriteOk 2 s.hottest w) ∧
    ∃ s s' ws,
      vsetRun sortHot 2 (List.replicate 16 ⟨0, 0⟩) (List.replicate 16 0) (List.replicate 16 0)
        [1, 0] [[0, 1], [0, 1]] = .ok s ∧
      vsetStep sortHot 2 s [0, 1] = .ok (s', ws) ∧ (∀ w ∈ ws, WriteOk 2 s'.hottest w) ∧
      (s'.hottest ≠ s.hottest → ∃ pre e₁ e₂, [[0, 1], [0, 1]] = pre ++ [e₁, e₂] ∧
        ∀ x ∈ [e₁, e₂, [0, 1]], Qualifies sortHot 2 x s'.hottest s.hottest) :=
  let h := vsetLoop_hysteresis (fun l => List.perm_insertionSort _ l) (le_refl 2) (by decide)
    (List.replicate 16 ⟨0, 0⟩) (List.replicate 16 0) (List.replicate 16 0) ⟨rfl, rfl, rfl⟩
    [1, 0]
  ⟨h.1, h.2 [[0, 1], [0, 1]] [0, 1]⟩

/-- Colour `1` on top from the first loop scan on: the hottest colour is still `0` after two
scans and is `1` after the third. -/
example :
    (vsetRun sortHot 2 (List.replicate 16 ⟨0, 0⟩) (List.replicate 16 0) (List.replicate 16 0)
        [1, 0] [[0, 1], [0, 1]]).map VsetState.hottest = .ok 0 ∧
      (vsetRun sortHot 2 (List.replicate 16 ⟨0, 0⟩) (List.replicate 16 0) (List.replicate 16 0)
        [1, 0] [[0, 1], [0, 1], [0, 1]]).map VsetState.hottest = .ok 1 := by
  decide +kernel

/-- **More colours than `VCOLOR_MAX_COLORS`: the first fill writes past `tmp`.** With an L2 of
2048 sets of 64-byte lines, `g_n_uncertain_l2_sets` is 32. -/
theorem vsetStart_overflow (qsort : List ColorHot → List ColorHot) {n_colors : ℕ}
    (hn : vcolorMaxColors < n_colors) (tmp : List ColorHot) (htmp : tmp.length = vcolorMaxColors)
    (order last_order : List ℕ) (ewma : List ℚ) :
    vsetStart qsort n_colors tmp order last_order ewma =
      .error (.outOfBounds vcolorMaxColors vcolorMaxColors) := by
  unfold vsetStart
  rw [fillTmp_of_lt ewma tmp (by omega), htmp]
  rfl

/-- The 32 colours of a 2 MiB, 16-way L2: the first scan writes `tmp[16]`. -/
theorem vsetStart_overflow_l2 :
    vsetStart sortHot 32 (List.replicate 16 ⟨0, 0⟩) (List.replicate 16 0) (List.replicate 16 0)
        (List.replicate 32 0) = .error (.outOfBounds 16 16) :=
  vsetStart_overflow sortHot (by decide) _ rfl _ _ _

end EvCache.Vcolor
