import EvCache.Config
import Mathlib.Order.Defs.Unbundled

set_option autoImplicit false

/-!
# Eviction tests and the ideal oracle

Every construction of `src/evset.c` decides which lines to keep by timing tests: does
accessing the lines `S[0..n)` evict the line `t`? A test reads the hardware, so the models
take it as an argument: a function of a state `σ`, which it may update, of the target and of
the lines it is handed. Every sequence of answers is such a function (take `σ` to be the
list of answers still to come), so a property proved for every test holds for every run of
the hardware.

The abstract layer is the **ideal oracle**: lines are grouped by an equivalence relation
`r` (same cache set), and a set evicts `t` exactly when it holds at least `W` (the
associativity `n_ways`) lines congruent to `t`. Its two forms, `EvCache.idealTest` for the
`EvRes` function pointer `build_conf->test` and `EvCache.idealDetailed` for
`test_eviction_detailed`, agree through `test_eviction`.

## Main definitions

* `EvCache.testEviction` — `test_eviction` of `evset.c`, over any detailed test.
* `EvCache.congCount` — the number of lines of a list congruent to a target.
* `EvCache.idealTest`, `EvCache.idealDetailed` — the ideal oracle.

## Main results

* `EvCache.testEviction_idealDetailed` — `test_eviction` over the ideal detailed test is the
  ideal test.
* `EvCache.congCount_congr` — congruent targets have the same counts.

## References

* `src/src/evset.c`, lines 458-552.
-/

namespace EvCache

variable {σ α : Type}

/-- `test_eviction` (`evset.c:549`): the detailed verdict, read as `OK` when positive. -/
def testEviction (detailed : σ → α → List α → EvTestRes × σ) (st : σ) (target : α)
    (S : List α) : EvRes × σ :=
  let (res, st') := detailed st target S
  (if 0 < res.toInt then .ok else .fail, st')

section Ideal

variable (r : α → α → Prop) [DecidableRel r] (W : ℕ)

/-- The number of lines of `S` congruent to `t`. -/
def congCount (t : α) (S : List α) : ℕ := S.countP fun x => decide (r x t)

/-- The ideal `build_conf->test`: `OK` exactly when `S` holds at least `W` lines congruent
to the target. -/
def idealTest : Unit → α → List α → EvRes × Unit :=
  fun _ t S => (if W ≤ congCount r t S then .ok else .fail, ())

/-- The ideal `test_eviction_detailed`: `EV_POS` exactly when `S` holds at least `W` lines
congruent to the target, `EV_NEG` otherwise. -/
def idealDetailed : Unit → α → List α → EvTestRes × Unit :=
  fun _ t S => (if W ≤ congCount r t S then .evPos else .evNeg, ())

lemma testEviction_idealDetailed : testEviction (idealDetailed r W) = idealTest r W := by
  funext st t S
  by_cases h : W ≤ congCount r t S <;> simp [testEviction, idealDetailed, idealTest, h,
    EvTestRes.toInt]

@[simp] lemma idealTest_eq_ok_iff (t : α) (S : List α) :
    (idealTest r W () t S).1 = .ok ↔ W ≤ congCount r t S := by
  by_cases h : W ≤ congCount r t S <;> simp [idealTest, h]

@[simp] lemma idealTest_eq_fail_iff (t : α) (S : List α) :
    (idealTest r W () t S).1 = .fail ↔ congCount r t S < W := by
  by_cases h : W ≤ congCount r t S
  · simp [idealTest, h]
  · simp [idealTest, h]
    omega

@[simp] lemma idealTest_state (t : α) (S : List α) : (idealTest r W () t S).2 = () := rfl

lemma le_congCount_of_idealTest {u u' : Unit} {t : α} {S : List α}
    (h : idealTest r W u t S = (.ok, u')) : W ≤ congCount r t S := by
  unfold idealTest at h
  by_cases hW : W ≤ congCount r t S
  · exact hW
  · rw [if_neg hW] at h
    cases h

lemma congCount_lt_of_idealTest {u u' : Unit} {t : α} {S : List α}
    (h : idealTest r W u t S = (.fail, u')) : congCount r t S < W := by
  unfold idealTest at h
  by_cases hW : W ≤ congCount r t S
  · rw [if_pos hW] at h
    cases h
  · omega

/-- A list of lines all congruent to `t` counts all of them. -/
lemma congCount_eq_length {t : α} {S : List α} (h : ∀ x ∈ S, r x t) :
    congCount r t S = S.length :=
  List.countP_eq_length.mpr fun x hx => decide_eq_true (h x hx)

lemma congCount_le_length (t : α) (S : List α) : congCount r t S ≤ S.length :=
  List.countP_le_length

variable {r}

/-- Congruent targets have the same congruent lines. -/
lemma congCount_congr (hr : Equivalence r) {t u : α} (h : r t u) (S : List α) :
    congCount r t S = congCount r u S := by
  unfold congCount
  apply List.countP_congr
  intro x _
  simp only [decide_eq_true_eq]
  exact ⟨fun hx => hr.trans hx h, fun hx => hr.trans hx (hr.symm h)⟩

end Ideal

end EvCache
