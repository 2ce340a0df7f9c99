import EvCache.Lib.Loop
import EvCache.Lib.CArray
import EvCache.Evset.Test

set_option autoImplicit false

/-!
# `prune_evcands`: dropping the lines an eviction set does not need

`prune_evcands(target, cands, cnt)` walks the live lines `cands[0..cnt)`. For the line `x`
at `i` it tests whether the live lines, with the target in `x`'s slot, still evict `x`; if
not, `x` is swapped behind the live part and the swapped-in line is tested at the same `i`,
otherwise `i` advances. It returns the final count.

Under the ideal oracle a line congruent to the target is tested against as many congruent
lines as the target has, and any other line against one fewer than its class holds; so the
loop keeps exactly the congruent lines when there are at least `W` of them and no other
class has more than `W`.

## Main definitions

* `EvCache.PruneState`, `EvCache.pruneBody` — the loop variables and one pass of the loop.
* `EvCache.pruneEvcands` — `prune_evcands` of `evset.c`.

## Main results

* `EvCache.pruneEvcands_spec` — for every test: the call returns, keeps at most `cnt` lines,
  and permutes `cands[0..cnt)`.
* `EvCache.pruneEvcands_ideal` — under the ideal oracle: it keeps exactly the congruent lines.
* `EvCache.pruneEvcands_congruent` — under the ideal oracle, a set of at least `W` congruent
  lines is left as it is.

## References

* `src/src/evset.c`, lines 613-634.
-/

namespace EvCache

open CArray FuelLoop

variable {σ α : Type}

/-- The loop variables of `prune_evcands`: the array, the index `i` of the line under test,
the live count `cnt`, and the state of the test. -/
structure PruneState (σ α : Type) where
  cands : List α
  i : ℕ
  cnt : ℕ
  st : σ

/-- One pass of the loop of `prune_evcands` (`evset.c:616-626`). -/
def pruneBody (test : σ → α → List α → EvRes × σ) (target : α) (s : PruneState σ α) :
    Except Fault (Next (PruneState σ α)) := do
  -- `_swap(target, cands[i])`: the line under test becomes the target, the target its slot
  let line ← get s.cands s.i
  let cands ← set s.cands s.i target
  let S ← slice cands 0 s.cnt
  let (tres, st) := test s.st line S
  -- the second `_swap(target, cands[i])` puts the line back
  let cands ← set cands s.i line
  if tres = .fail then
    -- `cnt -= 1; _swap(cands[i], cands[cnt])`, and slot `i` is tested again
    let cands ← swap cands s.i (s.cnt - 1)
    pure (.cont ⟨cands, s.i, s.cnt - 1, st⟩)
  else
    pure (.cont ⟨cands, s.i + 1, s.cnt, st⟩)

/-- `prune_evcands` (`evset.c:613`): the array afterwards, the number of lines kept at its
front, and the state of the test. -/
def pruneEvcands (test : σ → α → List α → EvRes × σ) (st : σ) (target : α) (cands : List α)
    (cnt : ℕ) : Except Fault (List α × ℕ × σ) := do
  let s ← run (fun s => decide (s.i < s.cnt)) (pruneBody test target) .outOfFuel (cnt + 1)
    ⟨cands, 0, cnt, st⟩
  pure (s.cands, s.cnt, s.st)

/-! ## One pass -/

section Pass

variable (test : σ → α → List α → EvRes × σ) (target : α) {s : PruneState σ α}

/-- The window the test of slot `i` sees: the live lines with the target in slot `i`. -/
def pruneWindow (target : α) (s : PruneState σ α) : List α := (s.cands.set s.i target).take s.cnt

private lemma prune_set_back (hi : s.i < s.cnt) (hc : s.cnt ≤ s.cands.length) :
    (s.cands.set s.i target).set s.i s.cands[s.i] = s.cands := by
  simp

lemma pruneBody_fail (hi : s.i < s.cnt) (hc : s.cnt ≤ s.cands.length) {st' : σ}
    (h : test s.st s.cands[s.i] (pruneWindow target s) = (.fail, st')) :
    pruneBody test target s = .ok (.cont ⟨exch s.cands s.i (s.cnt - 1), s.i, s.cnt - 1, st'⟩) := by
  have hl : s.i < (s.cands.set s.i target).length := by simp; omega
  simp only [pruneBody, get_of_lt (show s.i < s.cands.length by omega), ok_bind,
    set_of_lt (show s.i < s.cands.length by omega),
    slice_zero_of_le (show s.cnt ≤ (s.cands.set s.i target).length by simp; omega)]
  rw [show (s.cands.set s.i target).take s.cnt = pruneWindow target s from rfl, h]
  have hlast : (s.cnt : ℤ) - 1 = ((s.cnt - 1 : ℕ) : ℤ) := by omega
  simp only [set_of_lt hl, ok_bind, prune_set_back target hi hc, if_true, hlast,
    swap_of_lt (show s.i < s.cands.length by omega) (show s.cnt - 1 < s.cands.length by omega)]
  rfl

lemma pruneBody_ok (hi : s.i < s.cnt) (hc : s.cnt ≤ s.cands.length) {st' : σ}
    (h : test s.st s.cands[s.i] (pruneWindow target s) = (.ok, st')) :
    pruneBody test target s = .ok (.cont ⟨s.cands, s.i + 1, s.cnt, st'⟩) := by
  have hl : s.i < (s.cands.set s.i target).length := by simp; omega
  simp only [pruneBody, get_of_lt (show s.i < s.cands.length by omega), ok_bind,
    set_of_lt (show s.i < s.cands.length by omega),
    slice_zero_of_le (show s.cnt ≤ (s.cands.set s.i target).length by simp; omega)]
  rw [show (s.cands.set s.i target).take s.cnt = pruneWindow target s from rfl, h]
  simp only [set_of_lt hl, ok_bind, prune_set_back target hi hc]
  rfl

end Pass

/-! ## Every test -/

section AnyTest

variable (test : σ → α → List α → EvRes × σ) (target : α)

/-- The frame of a run of `prune_evcands` from `(cands, cnt)`: `i` stays inside the live part,
the live part only shrinks, and the array stays `cands` with `cands[0..cnt)` permuted. -/
def PruneFrame (cands : List α) (cnt : ℕ) (s : PruneState σ α) : Prop :=
  s.i ≤ s.cnt ∧ s.cnt ≤ cnt ∧ PermOn cnt s.cands cands

lemma pruneBody_frame {cands : List α} {cnt : ℕ} (hc : cnt ≤ cands.length)
    {s : PruneState σ α} (hs : PruneFrame cands cnt s) (hi : s.i < s.cnt) :
    ∃ s', pruneBody test target s = .ok (.cont s') ∧ PruneFrame cands cnt s' ∧
      s'.cnt - s'.i < s.cnt - s.i := by
  obtain ⟨_, hcnt, hperm⟩ := hs
  have hlen : s.cnt ≤ s.cands.length := by rw [hperm.1]; omega
  rcases h : test s.st s.cands[s.i] (pruneWindow target s) with ⟨tres, st'⟩
  cases tres with
  | ok =>
    exact ⟨_, pruneBody_ok test target hi hlen h, ⟨by simp; omega, hcnt, hperm⟩, by simp; omega⟩
  | fail =>
    refine ⟨_, pruneBody_fail test target hi hlen h, ⟨by simp; omega, by simp; omega, ?_⟩,
      by simp; omega⟩
    exact hperm.exch_left (by omega) (by omega)

/-- **`prune_evcands` under every test**: the call returns without a fault, keeps at most
`cnt` lines, and leaves the array with `cands[0..cnt)` permuted and the rest unchanged.

**Proof sketch.** The variant rule with the frame as invariant and `cnt - i` as measure;
each pass either advances `i` or lowers `cnt`. -/
theorem pruneEvcands_spec (st : σ) (cands : List α) {cnt : ℕ} (hc : cnt ≤ cands.length) :
    ∃ cands' k st', pruneEvcands test st target cands cnt = .ok (cands', k, st') ∧
      k ≤ cnt ∧ PermOn cnt cands' cands := by
  obtain ⟨r, hr, hq⟩ := run_spec _ _ Fault.outOfFuel (PruneFrame cands cnt)
    (PruneFrame cands cnt) (fun s => s.cnt - s.i)
    (fun s hs hg => Or.inl (pruneBody_frame test target hc hs (of_decide_eq_true hg)))
    (fun s hs _ => hs) (cnt + 1) ⟨cands, 0, cnt, st⟩ ⟨Nat.zero_le _, Nat.le_refl _, PermOn.refl _ _⟩
    (by simp)
  exact ⟨r.cands, r.cnt, r.st, by simp [pruneEvcands, hr], hq.2.1, hq.2.2⟩

end AnyTest

/-! ## The ideal oracle -/

section Ideal

variable (r : α → α → Prop) [DecidableRel r] (W : ℕ) (target : α)

/-- The invariant of `prune_evcands` under the ideal oracle, from `(cands, cnt)`: the lines
already tested are congruent to the target, the live part still holds every congruent line,
and no other class has more than `W` live lines. -/
structure PruneIdeal (cands : List α) (cnt : ℕ) (s : PruneState Unit α) : Prop where
  frame : PruneFrame cands cnt s
  tested : ∀ x ∈ s.cands.take s.i, r x target
  cong : congCount r target (s.cands.take s.cnt) = congCount r target (cands.take cnt)
  other : ∀ y, ¬ r y target → congCount r y (s.cands.take s.cnt) ≤ W

variable {r} (hr : Equivalence r)

include hr

/-- Under the ideal oracle the line in slot `i` is tested against as many lines of its own
class as the live part holds, less itself, plus one if the target is in its class. -/
private lemma congCount_pruneWindow {s : PruneState Unit α} (hi : s.i < s.cnt)
    (hlen : s.cnt ≤ s.cands.length) :
    congCount r s.cands[s.i] (pruneWindow target s) + 1 =
      congCount r s.cands[s.i] (s.cands.take s.cnt) +
        if r target s.cands[s.i] then 1 else 0 := by
  have h := countP_take_set (fun y => decide (r y s.cands[s.i])) s.cands hi hlen target
  simp only [decide_eq_true_eq, hr.refl, if_true] at h
  unfold congCount pruneWindow
  rw [h]

/-- One pass under the ideal oracle keeps the invariant: a congruent line is tested against
all the congruent lines and kept; any other line against fewer than `W` of its class and
dropped. -/
lemma pruneBody_ideal {cands : List α} {cnt : ℕ} (hc : cnt ≤ cands.length)
    (hW : W ≤ congCount r target (cands.take cnt)) {s : PruneState Unit α}
    (hs : PruneIdeal r W target cands cnt s) (hi : s.i < s.cnt) :
    ∃ s', pruneBody (idealTest r W) target s = .ok (.cont s') ∧
      PruneIdeal r W target cands cnt s' ∧ s'.cnt - s'.i < s.cnt - s.i := by
  obtain ⟨⟨_, hcnt, hperm⟩, htested, hcong, hother⟩ := hs
  have hlen : s.cnt ≤ s.cands.length := by rw [hperm.1]; omega
  have hwin := congCount_pruneWindow target hr hi hlen
  by_cases hx : r s.cands[s.i] target
  · -- a congruent line sees the target's whole class: kept
    have hpass : idealTest r W () s.cands[s.i] (pruneWindow target s) = (.ok, ()) := by
      have hsame := congCount_congr hr hx (s.cands.take s.cnt)
      simp only [hr.symm hx, if_true] at hwin
      simp only [idealTest, Prod.mk.injEq, and_true, ite_eq_left_iff, reduceCtorEq]
      omega
    refine ⟨_, pruneBody_ok _ target hi hlen hpass,
      ⟨⟨show s.i + 1 ≤ s.cnt by omega, hcnt, hperm⟩, ?_, hcong, hother⟩,
      show s.cnt - (s.i + 1) < s.cnt - s.i by omega⟩
    show ∀ x ∈ s.cands.take (s.i + 1), r x target
    intro x hmem
    rw [List.take_add_one, List.getElem?_eq_getElem (by omega)] at hmem
    rcases List.mem_append.mp hmem with hmem | hmem
    · exact htested x hmem
    · simp only [Option.toList_some, List.mem_singleton] at hmem
      exact hmem ▸ hx
  · -- any other line sees one fewer than its class holds: dropped
    have hx' : ¬ r target s.cands[s.i] := fun h => hx (hr.symm h)
    have hfail : idealTest r W () s.cands[s.i] (pruneWindow target s) = (.fail, ()) := by
      have hle := hother _ hx
      simp only [hx', if_false] at hwin
      simp only [idealTest, Prod.mk.injEq, and_true, ite_eq_right_iff, reduceCtorEq, imp_false]
      omega
    have hdrop : ∀ y, congCount r y ((exch s.cands s.i (s.cnt - 1)).take (s.cnt - 1)) ≤
        congCount r y (s.cands.take s.cnt) := by
      intro y
      have h := countP_take_exch_last (fun z => decide (r z y)) s.cands
        (show s.i ≤ s.cnt - 1 by omega) (show s.cnt - 1 < s.cands.length by omega)
      rw [Nat.sub_add_cancel (show 1 ≤ s.cnt by omega)] at h
      unfold congCount
      omega
    refine ⟨_, pruneBody_fail _ target hi hlen hfail,
      ⟨⟨by simp; omega, by simp; omega, hperm.exch_left (by omega) (by omega)⟩, ?_, ?_, ?_⟩,
      by simp; omega⟩
    · simpa [take_exch_of_le s.cands (Nat.le_refl s.i) (show s.i ≤ s.cnt - 1 by omega)] using htested
    · have h := countP_take_exch_last (fun z => decide (r z target)) s.cands
        (show s.i ≤ s.cnt - 1 by omega) (show s.cnt - 1 < s.cands.length by omega)
      rw [Nat.sub_add_cancel (show 1 ≤ s.cnt by omega)] at h
      simp only [decide_eq_true_eq, hx, if_false, Nat.add_zero] at h
      rw [← hcong]
      exact h
    · exact fun y hy => Nat.le_trans (hdrop y) (hother y hy)

/-- **`prune_evcands` under the ideal oracle**: when `cands[0..cnt)` holds at least `W` lines
congruent to the target and at most `W` of every other class, the call keeps exactly the
congruent lines. It returns their number, with them at the front of the array.

**Proof sketch.** The variant rule with `PruneIdeal` as invariant (`pruneBody_ideal`). At
the exit every live line has been tested, so the live part is all congruent; since no
congruent line was dropped, it is the whole congruent part of the input, and what was
dropped holds no congruent line. -/
theorem pruneEvcands_ideal (cands : List α) {cnt : ℕ} (hc : cnt ≤ cands.length)
    (hT : W ≤ congCount r target (cands.take cnt))
    (hO : ∀ y, ¬ r y target → congCount r y (cands.take cnt) ≤ W) :
    ∃ cands', pruneEvcands (idealTest r W) () target cands cnt =
        .ok (cands', congCount r target (cands.take cnt), ()) ∧
      PermOn cnt cands' cands ∧
      (cands'.take (congCount r target (cands.take cnt))).Perm
        ((cands.take cnt).filter fun x => decide (r x target)) := by
  obtain ⟨s, hrun, hs⟩ := run_spec _ _ Fault.outOfFuel (PruneIdeal r W target cands cnt)
    (fun s => PruneIdeal r W target cands cnt s ∧ s.cnt ≤ s.i) (fun s => s.cnt - s.i)
    (fun s hs hg => Or.inl (pruneBody_ideal W target hr hc hT hs (of_decide_eq_true hg)))
    (fun s hs hg => ⟨hs, by simpa using hg⟩) (cnt + 1) ⟨cands, 0, cnt, ()⟩
    ⟨⟨Nat.zero_le _, Nat.le_refl _, PermOn.refl _ _⟩, by simp, rfl, hO⟩ (by simp)
  obtain ⟨⟨⟨_, _, hperm⟩, htested, hcong, _⟩, hexit⟩ := hs
  have hlen : s.cnt ≤ s.cands.length := by rw [hperm.1]; omega
  -- every live line has been tested, so the live part is all congruent
  have hall : ∀ x ∈ s.cands.take s.cnt, r x target := by
    rw [show s.cnt = s.i by omega]
    exact htested
  have hlive : congCount r target (s.cands.take s.cnt) = s.cnt := by
    rw [congCount, List.countP_eq_length.mpr (by simpa using hall)]
    simp
    omega
  have hk : s.cnt = congCount r target (cands.take cnt) := by rw [← hcong, hlive]
  -- what was dropped holds no congruent line
  have hrest : ((s.cands.take cnt).drop s.cnt).filter (fun x => decide (r x target)) = [] := by
    have hw := countP_window (fun x => decide (r x target)) s.cands (show s.cnt ≤ cnt by omega)
    have hp : (s.cands.take cnt).countP (fun x => decide (r x target)) =
        congCount r target (cands.take cnt) := hperm.2.1.countP_eq _
    rw [List.filter_eq_nil_iff, ← List.countP_eq_zero]
    unfold congCount at hlive hk hp
    omega
  have hsplit : s.cands.take cnt = s.cands.take s.cnt ++ (s.cands.take cnt).drop s.cnt := by
    conv_lhs => rw [← List.take_append_drop s.cnt (s.cands.take cnt)]
    rw [List.take_take, Nat.min_eq_left (by omega)]
  refine ⟨s.cands, by simp [pruneEvcands, hrun, hk], hperm, ?_⟩
  rw [← hk]
  have hfilter : (s.cands.take cnt).filter (fun x => decide (r x target)) =
      s.cands.take s.cnt := by
    rw [hsplit, List.filter_append, hrest, List.append_nil, List.filter_eq_self]
    simpa using hall
  rw [← hfilter]
  exact hperm.2.1.filter _

/-- **A congruent set survives pruning**: under the ideal oracle, `prune_evcands` on at least
`W` lines all congruent to the target keeps them all and leaves the array as it is.

**Proof sketch.** Every test sees the whole live part, with the target in the tested slot,
and all of it is congruent to the tested line; so every test passes and nothing moves. -/
theorem pruneEvcands_congruent (cands : List α) {cnt : ℕ} (hc : cnt ≤ cands.length)
    (hall : ∀ x ∈ cands.take cnt, r x target) (hW : W ≤ cnt) :
    pruneEvcands (idealTest r W) () target cands cnt = .ok (cands, cnt, ()) := by
  have hpass : ∀ (s : PruneState Unit α) (hi : s.i < s.cnt) (hl : s.cnt ≤ s.cands.length),
      s.cands = cands → s.cnt = cnt →
      idealTest r W () s.cands[s.i] (pruneWindow target s) = (.ok, ()) := by
    intro s hi hl h1 h2
    subst h1 h2
    have hx : r s.cands[s.i] target := hall _ (getElem_mem_take _ hi (by omega))
    have hwin := congCount_pruneWindow target hr hi hl
    have hfull : congCount r s.cands[s.i] (s.cands.take s.cnt) = s.cnt := by
      rw [congCount, List.countP_eq_length.mpr]
      · simp; omega
      · intro y hy
        simpa using hr.trans (hall y hy) (hr.symm hx)
    simp only [hr.symm hx, if_true] at hwin
    simp only [idealTest, Prod.mk.injEq, and_true, ite_eq_left_iff, reduceCtorEq]
    omega
  obtain ⟨s, hrun, hs, hcnt⟩ := run_spec (fun s => decide (s.i < s.cnt))
    (pruneBody (idealTest r W) target) Fault.outOfFuel
    (fun s : PruneState Unit α => s.cands = cands ∧ s.cnt = cnt ∧ s.i ≤ s.cnt)
    (fun s => s.cands = cands ∧ s.cnt = cnt) (fun s => s.cnt - s.i)
    (fun s hs hg => by
      obtain ⟨h1, h2, _⟩ := hs
      have hi := of_decide_eq_true hg
      have hl : s.cnt ≤ s.cands.length := by rw [h1, h2]; exact hc
      refine Or.inl ⟨_, pruneBody_ok _ target hi hl (hpass s hi hl h1 h2), ?_⟩
      exact ⟨⟨h1, h2, show s.i + 1 ≤ s.cnt by omega⟩, show s.cnt - (s.i + 1) < s.cnt - s.i by omega⟩)
    (fun s hs _ => ⟨hs.1, hs.2.1⟩) (cnt + 1) ⟨cands, 0, cnt, ()⟩ ⟨rfl, rfl, Nat.zero_le _⟩
    (by simp)
  simp [pruneEvcands, hrun, hs, hcnt]

/-- **`prune_evcands` keeps exactly the congruent lines, and is idempotent.** Under the ideal
oracle, when `cands[0..cnt)` holds at least `W` lines congruent to the target and at most `W`
of every other class, the call returns the number `k` of congruent lines, `cands[0..k)` are
those lines, `cands[0..cnt)` is a permutation of its input, and pruning `cands[0..k)` again
returns `k` and moves nothing.

**Proof sketch.** `pruneEvcands_ideal` gives the first three facts; the kept lines are all
congruent and at least `W`, so `pruneEvcands_congruent` gives the last. -/
theorem pruneEvcands_keeps_congruent (cands : List α) {cnt : ℕ} (hc : cnt ≤ cands.length)
    (hT : W ≤ congCount r target (cands.take cnt))
    (hO : ∀ y, ¬ r y target → congCount r y (cands.take cnt) ≤ W) :
    ∃ cands', pruneEvcands (idealTest r W) () target cands cnt =
        .ok (cands', congCount r target (cands.take cnt), ()) ∧
      (cands'.take (congCount r target (cands.take cnt))).Perm
        ((cands.take cnt).filter fun x => decide (r x target)) ∧
      (cands'.take cnt).Perm (cands.take cnt) ∧
      pruneEvcands (idealTest r W) () target cands' (congCount r target (cands.take cnt)) =
        .ok (cands', congCount r target (cands.take cnt), ()) := by
  obtain ⟨cands', hrun, hperm, hkept⟩ := pruneEvcands_ideal W target hr cands hc hT hO
  have hk : congCount r target (cands.take cnt) ≤ cnt :=
    Nat.le_trans List.countP_le_length (List.length_take_le _ _)
  have hall : ∀ x ∈ cands'.take (congCount r target (cands.take cnt)), r x target := by
    intro x hx
    simpa using List.of_mem_filter (hkept.mem_iff.mp hx)
  refine ⟨cands', hrun, hkept, hperm.2.1, ?_⟩
  exact pruneEvcands_congruent W target hr cands' (by rw [hperm.1]; omega) hall hT

end Ideal

/-- The parity classes with two ways: from `[1, 2, 3, 4]` and target `0`, pruning keeps the
two even lines. -/
theorem pruneEvcands_keeps_congruent_parity :
    ∃ cands', pruneEvcands (idealTest (fun x y : ℕ => x % 2 = y % 2) 2) () 0 [1, 2, 3, 4] 4 =
        .ok (cands', congCount (fun x y : ℕ => x % 2 = y % 2) 0 ([1, 2, 3, 4].take 4), ()) ∧
      (cands'.take (congCount (fun x y : ℕ => x % 2 = y % 2) 0 ([1, 2, 3, 4].take 4))).Perm
        (([1, 2, 3, 4].take 4).filter fun x => decide (x % 2 = 0 % 2)) ∧
      (cands'.take 4).Perm ([1, 2, 3, 4].take 4) ∧
      pruneEvcands (idealTest (fun x y : ℕ => x % 2 = y % 2) 2) () 0 cands'
          (congCount (fun x y : ℕ => x % 2 = y % 2) 0 ([1, 2, 3, 4].take 4)) =
        .ok (cands', congCount (fun x y : ℕ => x % 2 = y % 2) 0 ([1, 2, 3, 4].take 4), ()) :=
  @pruneEvcands_keeps_congruent ℕ (fun x y => x % 2 = y % 2) _ 2 0
    ⟨fun _ => rfl, Eq.symm, Eq.trans⟩ [1, 2, 3, 4] 4 (by decide) (by decide)
    (fun y hy => by
      have h1 : y % 2 = 1 := by omega
      unfold congCount
      simp [h1])

end EvCache
