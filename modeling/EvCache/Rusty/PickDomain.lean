import Mathlib

set_option autoImplicit false

/-!
# `task_pick_domain` of `scx_rusty`

The `scx_rusty` scheduler, patched for LCAS, places a task in a domain in
`task_pick_domain` (`scx/scheds/rust/scx_rusty/src/bpf/main.bpf.c`). The user side
publishes the preferred socket at key `0` of the array map `lcas_dom_order` (`nr_doms`,
"no preference", at start). The scan visits every domain once, in a round-robin order
from the CPU's counter `dom_rr_cur`. It skips the LCAS domain and records the first domain
whose CPUs meet the task's cpumask, and the first one of these in the task's mempolicy
mask. The LCAS domain is taken when it meets the cpumask and the mempolicy mask is empty
or holds it; otherwise the mempolicy domain, and otherwise the first domain.

## Model

Domains are numbers below `nr_doms`. The test `cpumask_intersects_domain(cpumask, ·)` is a
function `intersects`. The value at key `0` of `lcas_dom_order` is `lcas`: the map is an
array, so the lookup never fails. The mask that `task_set_preferred_mempolicy_dom_mask`
computed is `mempolicy`, a `u64` as a number. The counter `dom_rr_cur` is a `u32`. The
bits of `dom_mask` and of the masks are those of the numbers.

## Main definitions

* `EvCache.Rusty.pickDomain` — `task_pick_domain` once the CPU is known to be in range.
* `EvCache.Rusty.taskPickDomain` — `task_pick_domain`.
* `EvCache.Rusty.visitOrder` — the order the scan visits the domains.

## Main results

* `EvCache.Rusty.pickDomain_spec` — the choice: the LCAS domain whenever it meets the
  cpumask, otherwise the first domain of the mempolicy mask in the visiting order, and
  otherwise the first domain meeting the cpumask.
* `EvCache.Rusty.pickDomain_eq_noDomFound_iff`, `EvCache.Rusty.pickDomain_mem` —
  `NO_DOM_FOUND` only when no domain meets the cpumask; any other choice meets it.
* `EvCache.Rusty.pickDomain_dom_mask` — `taskc->dom_mask` holds exactly the domains meeting
  the cpumask.
* `EvCache.Rusty.pickDomain_prefers_lcas` — the LCAS domain is taken even against the
  mempolicy: line 1611 adds it to `preferred_dom_mask` before the test that should reject it.

## References

* `src/scx/scheds/rust/scx_rusty/src/bpf/main.bpf.c`, lines 1591-1644 (`task_pick_domain`)
  and 1297-1342 (`task_set_preferred_mempolicy_dom_mask`);
  `src/scx/scheds/rust/scx_rusty/src/main.rs`, lines 453-462.
-/

namespace EvCache.Rusty

/-- `MAX_DOMS` of `intf.h`. -/
def maxDoms : ℕ := 64

/-- `NO_DOM_FOUND` of `intf.h`. -/
def noDomFound : ℕ := maxDoms + 1

/-- `MAX_CPUS` of `intf.h`. -/
def maxCpus : ℕ := 512

/-- The variables of the scan: `dom`, `first_dom`, `preferred_dom` and `taskc->dom_mask`. -/
structure PickState where
  dom : ℕ
  first_dom : ℕ
  preferred_dom : ℕ
  dom_mask : ℕ
  deriving DecidableEq, Repr

/-- The body of the scan (`main.bpf.c:1617-1636`) on the domain `dom`: the LCAS domain
`lcas` is skipped, a domain meeting the cpumask is recorded, and the first of these in the
preferred mask `pmask` too. -/
def scanDom (intersects : ℕ → Bool) (lcas pmask : ℕ) (s : PickState) (dom : ℕ) : PickState :=
  if dom = lcas then { s with dom := dom }
  else if intersects dom then
    let first_dom := if s.first_dom = noDomFound then dom else s.first_dom
    let preferred_dom :=
      if pmask = 0 then s.preferred_dom
      else if (1 <<< dom) &&& pmask ≠ 0 ∧ s.preferred_dom = noDomFound then dom
      else s.preferred_dom
    ⟨dom, first_dom, preferred_dom, s.dom_mask ||| 1 <<< dom⟩
  else { s with dom := dom }

/-- An iteration of `bpf_repeat(nr_doms)` (`main.bpf.c:1615-1637`): the next domain,
`dom + 1` as a `u32` modulo `nr_doms`, then the body. -/
def pickStep (nr_doms : ℕ) (intersects : ℕ → Bool) (lcas pmask : ℕ) (s : PickState) :
    PickState :=
  scanDom intersects lcas pmask s ((s.dom + 1) % 2 ^ 32 % nr_doms)

/-- What `task_pick_domain` returns and writes into the task: the domain,
`taskc->dom_mask` and `taskc->preferred_dom_mask`. -/
structure PickOut where
  dom : ℕ
  dom_mask : ℕ
  preferred_dom_mask : ℕ
  deriving DecidableEq, Repr

/-- `task_pick_domain` after the CPU check (`main.bpf.c:1600-1644`), from
`dom = pcpu_ctx[cpu].dom_rr_cur`, with the LCAS domain `lcas` and the mask `mempolicy` that
`task_set_preferred_mempolicy_dom_mask` computed. -/
def pickDomain (nr_doms : ℕ) (intersects : ℕ → Bool) (dom_rr_cur lcas mempolicy : ℕ) :
    PickOut :=
  let prefer_valid := decide (lcas < nr_doms) && intersects lcas
  -- line 1611: the LCAS domain joins the preferred mask
  let pmask := if prefer_valid then mempolicy ||| 1 <<< lcas else mempolicy
  let s₀ : PickState := ⟨dom_rr_cur, if prefer_valid then lcas else noDomFound, noDomFound,
    if prefer_valid then 1 <<< lcas else 0⟩
  let s := (pickStep nr_doms intersects lcas pmask)^[nr_doms] s₀
  let dom :=
    if prefer_valid = true ∧ (pmask = 0 ∨ (1 <<< lcas) &&& pmask ≠ 0) then lcas
    else if s.preferred_dom ≠ noDomFound then s.preferred_dom else s.first_dom
  ⟨dom, s.dom_mask, pmask⟩

/-- `task_pick_domain(taskc, p, cpumask)` (`main.bpf.c:1591`) on CPU `cpu`: nothing written
and `NO_DOM_FOUND` for a CPU out of range (`none`); otherwise the choice, and the counter
`dom_rr_cur` moved on. -/
def taskPickDomain (cpu : ℤ) (nr_doms : ℕ) (intersects : ℕ → Bool)
    (dom_rr_cur lcas mempolicy : ℕ) : Option PickOut × ℕ :=
  if cpu < 0 ∨ (maxCpus : ℤ) ≤ cpu then (none, dom_rr_cur)
  else (some (pickDomain nr_doms intersects dom_rr_cur lcas mempolicy), (dom_rr_cur + 1) % 2 ^ 32)

/-- The `k`-th domain the scan visits: from the one after `dom_rr_cur`, wrapping around. -/
def visitDom (nr_doms dom_rr_cur k : ℕ) : ℕ := ((dom_rr_cur + 1) % 2 ^ 32 % nr_doms + k) % nr_doms

/-- The order in which the scan visits the domains. -/
def visitOrder (nr_doms dom_rr_cur : ℕ) : List ℕ := (List.range nr_doms).map (visitDom nr_doms dom_rr_cur)

/-! ## The visiting order -/

lemma visitDom_lt {nr_doms : ℕ} (h : 0 < nr_doms) (dom_rr_cur k : ℕ) :
    visitDom nr_doms dom_rr_cur k < nr_doms :=
  Nat.mod_lt _ h

lemma mem_visitOrder {nr_doms dom_rr_cur d : ℕ} :
    d ∈ visitOrder nr_doms dom_rr_cur ↔ d < nr_doms := by
  constructor
  · intro h
    obtain ⟨k, hk, rfl⟩ := List.mem_map.mp h
    exact visitDom_lt (by simp at hk; omega) _ _
  · intro hd
    -- the visit `(d + nr_doms - a) % nr_doms` lands on `d`, `a` the first domain visited
    set a := (dom_rr_cur + 1) % 2 ^ 32 % nr_doms with ha
    have hlt : a < nr_doms := Nat.mod_lt _ (by omega)
    refine List.mem_map.mpr ⟨(d + nr_doms - a) % nr_doms, List.mem_range.mpr (Nat.mod_lt _ (by omega)), ?_⟩
    unfold visitDom
    rw [← ha, Nat.add_mod_mod, show a + (d + nr_doms - a) = d + nr_doms by omega, Nat.add_mod_right,
      Nat.mod_eq_of_lt hd]

/-! ## The scan -/

section Scan

variable (intersects : ℕ → Bool) (lcas pmask : ℕ)

@[simp] lemma scanDom_dom (s : PickState) (d : ℕ) : (scanDom intersects lcas pmask s d).dom = d := by
  unfold scanDom
  split_ifs <;> rfl

lemma dom_foldl_scanDom : ∀ (l : List ℕ) (s : PickState),
    (l.foldl (scanDom intersects lcas pmask) s).dom = l.getLast?.getD s.dom := by
  intro l
  induction l with
  | nil => intro s; rfl
  | cons d l ih =>
    intro s
    rw [List.foldl_cons, ih, scanDom_dom]
    cases l with
    | nil => rfl
    | cons e l => simp [List.getLast?_cons]

/-- **The scan is a walk over the visiting order**, as long as it has domains to visit. -/
lemma iterate_pickStep {nr_doms : ℕ} (hn : nr_doms < 2 ^ 32) (s₀ : PickState) :
    ∀ k ≤ nr_doms, (pickStep nr_doms intersects lcas pmask)^[k] s₀ =
      ((List.range k).map (visitDom nr_doms s₀.dom)).foldl (scanDom intersects lcas pmask) s₀ := by
  intro k
  induction k with
  | zero => intro _; rfl
  | succ k ih =>
    intro hk
    rw [Function.iterate_succ_apply', ih (by omega), List.range_succ, List.map_append,
      List.foldl_append, List.map_singleton, List.foldl_cons, List.foldl_nil]
    unfold pickStep
    congr 1
    rw [dom_foldl_scanDom]
    -- the domain after the last one visited is the next one of the order
    cases k with
    | zero => simp [visitDom]
    | succ k =>
      have hlt := visitDom_lt (show 0 < nr_doms by omega) s₀.dom k
      rw [List.range_succ, List.map_append, List.getLast?_append, List.map_singleton,
        List.getLast?_singleton, Option.some_or, Option.getD_some,
        Nat.mod_eq_of_lt (show visitDom nr_doms s₀.dom k + 1 < 2 ^ 32 by omega)]
      unfold visitDom
      rw [Nat.mod_add_mod, Nat.add_assoc]

/-- A fold whose step records, in a slot still at `none`, an element with `P` (while `c`
holds) records the first element of the list with `P`. -/
lemma foldl_records_first {σ : Type*} (step : σ → ℕ → σ) (slot : σ → ℕ) (none : ℕ) (c : Prop)
    [Decidable c] (P : ℕ → Bool)
    (hstep : ∀ s d, d ≠ none → slot (step s d) = if slot s = none ∧ c ∧ P d = true then d else slot s) :
    ∀ (l : List ℕ), (∀ d ∈ l, d ≠ none) → ∀ s,
      slot (l.foldl step s) = if slot s = none ∧ c then (l.find? P).getD none else slot s := by
  intro l
  induction l with
  | nil => intro _ s; split_ifs with h <;> simp [h]
  | cons d l ih =>
    intro hl s
    have hd : d ≠ none := hl d List.mem_cons_self
    rw [List.foldl_cons, ih (fun x hx => hl x (List.mem_cons_of_mem d hx)), hstep s d hd,
      List.find?_cons]
    by_cases hs : slot s = none <;> by_cases hc : c <;> cases P d <;> simp [hs, hc, hd]

/-- The first domain recorded: kept once set, otherwise the first visited that is not the
LCAS domain and meets the cpumask. -/
lemma first_foldl_scanDom : ∀ (l : List ℕ), (∀ d ∈ l, d ≠ noDomFound) → ∀ s : PickState,
    (l.foldl (scanDom intersects lcas pmask) s).first_dom =
      if s.first_dom = noDomFound then (l.find? fun d => d != lcas && intersects d).getD noDomFound
      else s.first_dom := by
  have hstep : ∀ s d, d ≠ noDomFound → (scanDom intersects lcas pmask s d).first_dom =
      if s.first_dom = noDomFound ∧ True ∧ (d != lcas && intersects d) = true then d
      else s.first_dom := by
    intro s d _
    unfold scanDom
    by_cases hdl : d = lcas
    · simp [hdl]
    by_cases hi : intersects d = true <;> simp [hdl, hi]
  intro l hl s
  have h := foldl_records_first _ PickState.first_dom noDomFound True _ hstep l hl s
  simp only [and_true] at h
  exact h

/-- The preferred domain recorded: with a nonempty mask, the first visited that is not the
LCAS domain, meets the cpumask and is in the mask. -/
lemma preferred_foldl_scanDom : ∀ (l : List ℕ), (∀ d ∈ l, d ≠ noDomFound) → ∀ s : PickState,
    (l.foldl (scanDom intersects lcas pmask) s).preferred_dom =
      if s.preferred_dom = noDomFound ∧ pmask ≠ 0 then
        (l.find? fun d => d != lcas && intersects d && (1 <<< d) &&& pmask != 0).getD noDomFound
      else s.preferred_dom := by
  refine foldl_records_first _ PickState.preferred_dom noDomFound (pmask ≠ 0) _ ?_
  intro s d _
  unfold scanDom
  by_cases hdl : d = lcas
  · simp [hdl]
  by_cases hi : intersects d = true
  · by_cases hp : pmask = 0
    · simp [hdl, hi, hp]
    by_cases hb : (1 <<< d) &&& pmask = 0
    · simp [hdl, hi, hp, hb]
    · by_cases hf : s.preferred_dom = noDomFound <;> simp [hdl, hi, hp, hb, hf]
  · simp [hdl, hi]

/-- The whole scan: `nr_doms` iterations visit each domain once. -/
lemma iterate_pickStep_visitOrder {nr_doms : ℕ} (hn : nr_doms ≤ maxDoms) (s₀ : PickState) :
    (pickStep nr_doms intersects lcas pmask)^[nr_doms] s₀ =
      (visitOrder nr_doms s₀.dom).foldl (scanDom intersects lcas pmask) s₀ :=
  iterate_pickStep intersects lcas pmask (by unfold maxDoms at hn; omega) s₀ nr_doms le_rfl

/-- The domains recorded in `dom_mask`: those visited, other than the LCAS domain, that meet
the cpumask. -/
lemma dom_mask_foldl_scanDom (d : ℕ) : ∀ (l : List ℕ) (s : PickState),
    (l.foldl (scanDom intersects lcas pmask) s).dom_mask.testBit d =
      (s.dom_mask.testBit d || decide (d ∈ l ∧ d ≠ lcas ∧ intersects d = true)) := by
  intro l
  induction l with
  | nil => intro s; simp
  | cons e l ih =>
    intro s
    rw [List.foldl_cons, ih]
    unfold scanDom
    by_cases hel : e = lcas
    · subst hel
      by_cases hd : d = e <;> simp [hd]
    by_cases hi : intersects e = true
    · by_cases hd : d = e
      · subst hd
        simp [hel, hi, Nat.one_shiftLeft, Nat.testBit_two_pow_self]
      · simp [hel, hi, hd, Nat.one_shiftLeft, Ne.symm hd]
    · by_cases hd : d = e
      · subst hd
        simp [hel, hi]
      · simp [hel, hi, hd]

end Scan

/-! ## The choice -/

/-- A bit of a mask, as the code tests it. -/
@[simp] lemma one_shiftLeft_and_ne_zero (d m : ℕ) : (1 <<< d) &&& m ≠ 0 ↔ m.testBit d = true := by
  rw [Nat.one_shiftLeft]
  constructor
  · intro h
    obtain ⟨i, hi⟩ := Nat.exists_testBit_of_ne_zero h
    rw [Nat.testBit_and, Nat.testBit_two_pow, Bool.and_eq_true, decide_eq_true_eq] at hi
    exact hi.1 ▸ hi.2
  · intro h h0
    have := congrArg (fun x => x.testBit d) h0
    simp [Nat.testBit_and, Nat.testBit_two_pow_self, h] at this

/-- The domains the scan visits are never `NO_DOM_FOUND`. -/
lemma ne_noDomFound_of_mem_visitOrder {nr_doms dom_rr_cur d : ℕ} (hn : nr_doms ≤ maxDoms)
    (hd : d ∈ visitOrder nr_doms dom_rr_cur) : d ≠ noDomFound := by
  have := mem_visitOrder.mp hd
  unfold noDomFound
  omega

/-- A search of the visiting order that falls back on `x`, as the code returns
`preferred_dom != NO_DOM_FOUND ? preferred_dom : x`. -/
lemma ite_find?_visitOrder {nr_doms dom_rr_cur : ℕ} (hn : nr_doms ≤ maxDoms) (p : ℕ → Bool)
    (x : ℕ) :
    (if ((visitOrder nr_doms dom_rr_cur).find? p).getD noDomFound ≠ noDomFound then
      ((visitOrder nr_doms dom_rr_cur).find? p).getD noDomFound else x) =
      ((visitOrder nr_doms dom_rr_cur).find? p).getD x := by
  cases h : (visitOrder nr_doms dom_rr_cur).find? p with
  | none => simp
  | some d => simp [ne_noDomFound_of_mem_visitOrder hn (List.mem_of_find?_eq_some h)]

variable {nr_doms : ℕ} (intersects : ℕ → Bool) (dom_rr_cur lcas mempolicy : ℕ)

/-- **The LCAS domain is taken whenever it is valid**, whatever the mempolicy mask: line 1611
puts its bit into `preferred_dom_mask`, so the test of line 1639 that should check it against
the mask always holds. -/
theorem pickDomain_prefers_lcas (hv : lcas < nr_doms) (hi : intersects lcas = true) :
    (pickDomain nr_doms intersects dom_rr_cur lcas mempolicy).dom = lcas := by
  have hbit : (1 <<< lcas) &&& (mempolicy ||| 1 <<< lcas) ≠ 0 := by
    rw [one_shiftLeft_and_ne_zero, Nat.testBit_or, Nat.one_shiftLeft, Nat.testBit_two_pow_self,
      Bool.or_true]
  simp [pickDomain, hv, hi, hbit]

/-- Two domains meeting the cpumask, the counter at `0`, LCAS domain `0` and the mempolicy mask
holding only domain `1`: the scan visits `1` first and it is in the mask, yet `0` is taken. -/
theorem pickDomain_prefers_lcas_two :
    (pickDomain 2 (fun _ => true) 0 0 2).dom = 0 ∧
      ((visitOrder 2 0).find? fun d => Nat.testBit 2 d) = some 1 ∧ Nat.testBit 2 0 = false :=
  ⟨pickDomain_prefers_lcas (fun _ => true) 0 0 2 (by decide) rfl, by decide, by decide⟩

/-- The final state of the scan, when the LCAS domain is not valid: no domain is skipped that
matters, the first domain meeting the cpumask and the first of the mask. -/
lemma pickDomain_of_not_valid (hn : nr_doms ≤ maxDoms)
    (hv : ¬(lcas < nr_doms ∧ intersects lcas = true)) :
    (pickDomain nr_doms intersects dom_rr_cur lcas mempolicy).dom =
      ((visitOrder nr_doms dom_rr_cur).find? fun d => intersects d && mempolicy.testBit d).getD
        (((visitOrder nr_doms dom_rr_cur).find? intersects).getD noDomFound) := by
  have hpv : (decide (lcas < nr_doms) && intersects lcas) = false := by
    simpa using hv
  have hvis : ∀ d ∈ visitOrder nr_doms dom_rr_cur, d ≠ noDomFound :=
    fun d hd => ne_noDomFound_of_mem_visitOrder hn hd
  -- skipping `lcas` changes nothing: it is out of range or does not meet the cpumask
  have hskip : ∀ d ∈ visitOrder nr_doms dom_rr_cur, (d != lcas && intersects d) = intersects d := by
    intro d hd
    have := mem_visitOrder.mp hd
    by_cases hdl : d = lcas
    · subst hdl
      simp_all
    · simp [hdl]
  unfold pickDomain
  simp only [hpv, Bool.false_eq_true, if_false, false_and]
  rw [iterate_pickStep_visitOrder intersects lcas mempolicy hn, first_foldl_scanDom _ _ _ _ hvis, preferred_foldl_scanDom _ _ _ _ hvis]
  dsimp only
  by_cases hm : mempolicy = 0
  · subst hm
    have hnone : ((visitOrder nr_doms dom_rr_cur).find? fun d => intersects d && Nat.testBit 0 d) =
        none :=
      List.find?_eq_none.mpr (by simp)
    rw [if_neg (show ¬(noDomFound = noDomFound ∧ (0 : ℕ) ≠ 0) by simp),
      if_neg (show ¬(noDomFound ≠ noDomFound) from not_not.mpr rfl),
      if_pos (rfl : noDomFound = noDomFound), List.find?_congr hskip, hnone, Option.getD_none]
  · have hmask : ∀ d ∈ visitOrder nr_doms dom_rr_cur,
        (d != lcas && intersects d && (1 <<< d &&& mempolicy != 0)) =
          (intersects d && mempolicy.testBit d) := by
      intro d hd
      rw [hskip d hd]
      congr 1
      rw [Bool.eq_iff_iff, bne_iff_ne, one_shiftLeft_and_ne_zero]
    rw [if_pos (show noDomFound = noDomFound ∧ mempolicy ≠ 0 from ⟨rfl, hm⟩),
      if_pos (rfl : noDomFound = noDomFound), List.find?_congr hskip, List.find?_congr hmask,
      ite_find?_visitOrder hn]

/-- **What `task_pick_domain` chooses**: the LCAS domain whenever it meets the cpumask;
otherwise the first domain of the mempolicy mask in the visiting order that meets the cpumask,
and otherwise the first domain that meets it. -/
theorem pickDomain_spec (hn : nr_doms ≤ maxDoms) :
    (pickDomain nr_doms intersects dom_rr_cur lcas mempolicy).dom =
      if lcas < nr_doms ∧ intersects lcas = true then lcas
      else ((visitOrder nr_doms dom_rr_cur).find? fun d => intersects d && mempolicy.testBit d).getD
        (((visitOrder nr_doms dom_rr_cur).find? intersects).getD noDomFound) := by
  split_ifs with hv
  · exact pickDomain_prefers_lcas intersects dom_rr_cur lcas mempolicy hv.1 hv.2
  · exact pickDomain_of_not_valid intersects dom_rr_cur lcas mempolicy hn hv

/-- **The result is `NO_DOM_FOUND` with no domain meeting the cpumask, or a domain that meets
it.** -/
lemma pickDomain_dom_cases (hn : nr_doms ≤ maxDoms) :
    let dom := (pickDomain nr_doms intersects dom_rr_cur lcas mempolicy).dom
    (dom = noDomFound ∧ ∀ d < nr_doms, intersects d = false) ∨
      (dom < nr_doms ∧ intersects dom = true) := by
  intro dom
  simp only [dom, pickDomain_spec intersects dom_rr_cur lcas mempolicy hn]
  by_cases hv : lcas < nr_doms ∧ intersects lcas = true
  · exact .inr (by rwa [if_pos hv])
  rw [if_neg hv]
  -- the mempolicy search, then the cpumask search
  cases h₁ : (visitOrder nr_doms dom_rr_cur).find? (fun d => intersects d && mempolicy.testBit d) with
  | some d =>
    have hp := List.find?_some h₁
    rw [Bool.and_eq_true] at hp
    exact .inr ⟨mem_visitOrder.mp (List.mem_of_find?_eq_some h₁), hp.1⟩
  | none =>
    cases h₂ : (visitOrder nr_doms dom_rr_cur).find? intersects with
    | some d => exact .inr ⟨mem_visitOrder.mp (List.mem_of_find?_eq_some h₂), List.find?_some h₂⟩
    | none =>
      refine .inl ⟨rfl, fun d hd => ?_⟩
      simpa using List.find?_eq_none.mp h₂ d (mem_visitOrder.mpr hd)

/-- **`NO_DOM_FOUND` exactly when no domain meets the cpumask.** -/
theorem pickDomain_eq_noDomFound_iff (hn : nr_doms ≤ maxDoms) :
    (pickDomain nr_doms intersects dom_rr_cur lcas mempolicy).dom = noDomFound ↔
      ∀ d < nr_doms, intersects d = false := by
  rcases pickDomain_dom_cases intersects dom_rr_cur lcas mempolicy hn with ⟨hno, hall⟩ | ⟨hlt, hi⟩
  · exact ⟨fun _ => hall, fun _ => hno⟩
  · constructor
    · intro h
      unfold noDomFound maxDoms at h
      unfold maxDoms at hn
      omega
    · intro hall
      simp [hall _ hlt] at hi

/-- Three domains of which only the last meets the cpumask, with no LCAS preference. -/
theorem pickDomain_eq_noDomFound_iff_three :
    3 ≤ maxDoms ∧ ((pickDomain 3 (fun d => d == 2) 0 3 0).dom = noDomFound ↔
      ∀ d < 3, (fun d => d == 2) d = false) :=
  ⟨by decide, pickDomain_eq_noDomFound_iff (fun d => d == 2) 0 3 0 (by decide)⟩

/-- **Any other result is a domain that meets the cpumask.** -/
theorem pickDomain_mem (hn : nr_doms ≤ maxDoms)
    (h : (pickDomain nr_doms intersects dom_rr_cur lcas mempolicy).dom ≠ noDomFound) :
    (pickDomain nr_doms intersects dom_rr_cur lcas mempolicy).dom < nr_doms ∧
      intersects (pickDomain nr_doms intersects dom_rr_cur lcas mempolicy).dom = true := by
  rcases pickDomain_dom_cases intersects dom_rr_cur lcas mempolicy hn with ⟨hno, -⟩ | hmem
  · exact absurd hno h
  · exact hmem

/-- The same three domains: the choice is the last. -/
theorem pickDomain_mem_three :
    (pickDomain 3 (fun d => d == 2) 0 3 0).dom ≠ noDomFound ∧
      (pickDomain 3 (fun d => d == 2) 0 3 0).dom < 3 ∧
        (fun d => d == 2) (pickDomain 3 (fun d => d == 2) 0 3 0).dom = true :=
  ⟨by decide, pickDomain_mem (fun d => d == 2) 0 3 0 (by decide) (by decide)⟩

/-- **The task's `dom_mask` holds exactly the domains that meet the cpumask.** -/
theorem pickDomain_dom_mask (hn : nr_doms ≤ maxDoms) (d : ℕ) :
    (pickDomain nr_doms intersects dom_rr_cur lcas mempolicy).dom_mask.testBit d =
      (decide (d < nr_doms) && intersects d) := by
  unfold pickDomain
  dsimp only
  rw [iterate_pickStep_visitOrder intersects lcas _ hn, dom_mask_foldl_scanDom]
  dsimp only
  by_cases hv : (decide (lcas < nr_doms) && intersects lcas) = true
  · -- the LCAS domain's bit is set before the scan, which skips it
    rw [Bool.and_eq_true, decide_eq_true_eq] at hv
    rw [if_pos (by simpa using hv)]
    by_cases hd : d = lcas
    · subst hd
      simp [Nat.one_shiftLeft, Nat.testBit_two_pow_self, hv.1, hv.2]
    · simp [Nat.one_shiftLeft, Ne.symm hd, hd, mem_visitOrder]
  · rw [if_neg hv]
    by_cases hd : d = lcas
    · subst hd
      simp only [Bool.not_eq_true, Bool.and_eq_false_iff, decide_eq_false_iff_not] at hv
      rcases hv with hv | hv <;> simp [hv]
    · simp [hd, mem_visitOrder]

/-- The same three domains: the mask holds the last one. -/
theorem pickDomain_dom_mask_three :
    (pickDomain 3 (fun d => d == 2) 0 3 0).dom_mask.testBit 2 =
      (decide (2 < 3) && (fun d => d == 2) 2) :=
  pickDomain_dom_mask (fun d => d == 2) 0 3 0 (by decide) 2

end EvCache.Rusty
