import EvCache.Config

set_option autoImplicit false

/-!
# `test_eviction_detailed`: the vote of a test

`test_eviction_detailed` of `src/evset.c` decides whether a set evicts its target from
timed trials. A round counts the valid trials and those over the latency threshold, and
stops early with `EV_POS` once `upp_bnd` of them are over. A round with enough valid trials
decides `EV_POS` or `EV_NEG` by the bounds; otherwise, or between the bounds, the next round
starts. After `unsure_retry` rounds the count of the last one gives `EV_POS_UNSURE` or
`EV_NEG_UNSURE`.

## Model

A trial is what the measurement leaves: the two `TSC_AUX` values and the latency. How it is
measured (the flushes, the traversal of the set, the helper thread) is not modelled. The call
reads its trials from a stream `ℕ → Trial`, and returns the result with the number of trials
it used. The loops of the call read only the two flags of a trial, so they are stated over
the flag streams `valid` and `slow` (over the threshold). The `u32` products of the scaling and of `max_attempts`
and the sum `low_bnd + upp_bnd` wrap modulo `2 ^ 32`. The counters are bounded by
`max_attempts` and cannot wrap.

## Main definitions

* `EvCache.trialLoop` — the `while` loop of one round.
* `EvCache.roundsLoop` — the rounds and the final decision.
* `EvCache.testEvictionDetailed` — `test_eviction_detailed`.
* `EvCache.RoundFrom` — the rounds a call runs.

## Main results

* `EvCache.trialLoop_mono` — a round on a stream with more trials over the threshold ends at
  the same trial with a larger count, or returns `EV_POS` at once.
* `EvCache.roundsLoop_mono` — so the result grows with the trials over the threshold.
* `EvCache.testEvictionDetailed_vote` — the vote is monotone, uses at most
  `max(unsure_retry, 1) · 4 · trials` trials, and `EV_POS` and `EV_NEG` come from a round
  that counted past the bound.

## References

* `src/src/evset.c`, lines 458-552.
-/

namespace EvCache

/-- What one trial of `test_eviction_detailed` measures (`evset.c:481-521`): `TSC_AUX`
before and after, and the latency of the reload of the target. -/
structure Trial where
  aux_before : ℕ
  aux_after : ℕ
  lat : ℕ
  deriving DecidableEq, Repr

/-- A trial counts unless the thread migrated or was interrupted (`evset.c:523`). -/
def Trial.valid (interrupt_thresh : ℕ) (t : Trial) : Bool :=
  t.aux_before = t.aux_after && t.lat ≤ interrupt_thresh

/-- A counted trial is over the threshold (`evset.c:527`); the `i64` `lat_thresh` is
compared as a `u64`. -/
def Trial.over (lat_thresh : ℤ) (t : Trial) : Bool :=
  (lat_thresh % 2 ^ 64).toNat ≤ t.lat

/-- How a round ends: `return EV_POS` at once, with the next trial and `otc`, or the exit of
the loop with the next trial, `valid_trials` and `otc`. -/
inductive RoundEnd where
  | pos (next otc : ℕ)
  | done (next valid otc : ℕ)
  deriving DecidableEq, Repr

/-- The trial after a round. -/
def RoundEnd.next : RoundEnd → ℕ
  | .pos next _ => next
  | .done next _ _ => next

/-- The count `otc` at the end of a round. -/
def RoundEnd.otc : RoundEnd → ℕ
  | .pos _ otc => otc
  | .done _ _ otc => otc

section Loops

variable (valid slow : ℕ → Bool) (trials low_bnd upp_bnd : ℕ)

/-- The `while` loop of a round (`evset.c:480-531`) with `k` attempts left, from trial `n`,
with the counters `valid_trials` and `otc`. -/
def trialLoop : ℕ → ℕ → ℕ → ℕ → RoundEnd
  | 0, n, valid_trials, otc => .done n valid_trials otc
  | k + 1, n, valid_trials, otc =>
    if valid_trials < trials then
      if valid n then
        let otc := if slow n then otc + 1 else otc
        if upp_bnd ≤ otc then .pos (n + 1) otc
        else trialLoop k (n + 1) (valid_trials + 1) otc
      else trialLoop k (n + 1) valid_trials otc
    else .done n valid_trials otc

/-- `max_attempts = trials * 4`, a `u32` product. -/
def maxAttempts : ℕ := trials * 4 % 2 ^ 32

/-- The rounds of `test_eviction_detailed` (`evset.c:475-549`) with `r` left, from trial `n`,
`otc` being the count of the last round. -/
def roundsLoop : ℕ → ℕ → ℕ → EvTestRes × ℕ
  | 0, n, otc =>
    (if (low_bnd + upp_bnd) % 2 ^ 32 / 2 ≤ otc then .evPosUnsure else .evNegUnsure, n)
  | r + 1, n, _ =>
    match trialLoop valid slow trials upp_bnd (maxAttempts trials) n 0 0 with
    | .pos n _ => (.evPos, n)
    | .done n valid_trials otc =>
      -- too few valid trials: the round does not decide (`continue`)
      if valid_trials < trials / 2 then roundsLoop r n otc
      else if upp_bnd ≤ otc then (.evPos, n)
      else if otc < low_bnd then (.evNeg, n)
      else roundsLoop r n otc

/-- A round that ends without a decision: too few valid trials, or a count between the
bounds. -/
def RoundEnd.Undecided : RoundEnd → Prop
  | .pos _ _ => False
  | .done _ v otc => v < trials / 2 ∨ (otc < upp_bnd ∧ low_bnd ≤ otc)

/-- The rounds a call of `roundsLoop` from `r₀` rounds and trial `n₀` runs, each with the
rounds left counting it: the first, and the next after one that did not decide. -/
inductive RoundFrom (r₀ n₀ : ℕ) : ℕ → ℕ → Prop where
  | start : RoundFrom r₀ n₀ r₀ n₀
  | next {r n : ℕ} : RoundFrom r₀ n₀ (r + 1) n →
      (trialLoop valid slow trials upp_bnd (maxAttempts trials) n 0 0).Undecided trials low_bnd
        upp_bnd →
      RoundFrom r₀ n₀ r (trialLoop valid slow trials upp_bnd (maxAttempts trials) n 0 0).next

end Loops

/-- `trials`, `low_bnd` and `upp_bnd` after the scaling by `test_scale` (`evset.c:468-472`),
`u32` products. -/
def scaleBound (conf : EvBuildConf) (b : ℕ) : ℕ :=
  if 1 < conf.test_scale then b * conf.test_scale % 2 ^ 32 else b

/-- The number of rounds, `unsure_retry` or `1` in its place. -/
def unsureRetry (conf : EvBuildConf) : ℕ := if conf.unsure_retry = 0 then 1 else conf.unsure_retry

/-- The valid flags of a stream of trials. -/
def validFlags (interrupt_thresh : ℕ) (s : ℕ → Trial) (n : ℕ) : Bool :=
  (s n).valid interrupt_thresh

/-- The over-threshold flags of a stream of trials. -/
def overFlags (lat_thresh : ℤ) (s : ℕ → Trial) (n : ℕ) : Bool := (s n).over lat_thresh

/-- `test_eviction_detailed(target, cands, cnt, tconf)` (`evset.c:458`) on the trials `s`,
with `g_lats.interrupt_thresh`: the result and the number of trials it used. -/
def testEvictionDetailed (interrupt_thresh : ℕ) (conf : EvBuildConf) (s : ℕ → Trial) :
    EvTestRes × ℕ :=
  roundsLoop (validFlags interrupt_thresh s) (overFlags conf.lat_thresh s)
    (scaleBound conf conf.trials) (scaleBound conf conf.low_bnd) (scaleBound conf conf.upp_bnd)
    (unsureRetry conf) 0 0

/-- With the default `L2` bounds (`trials = 10`, `upp_bnd = 7`), trials that are all over the
threshold give `EV_POS` at the seventh. -/
example : testEvictionDetailed 1000 (initDefL2Conf 0 100) (fun _ => ⟨0, 0, 150⟩) = (.evPos, 7) := by
  decide

/-! ## The trials a call uses -/

section Count

variable (valid slow : ℕ → Bool) (trials low_bnd upp_bnd : ℕ)

lemma trialLoop_next_le : ∀ (k n v otc : ℕ),
    (trialLoop valid slow trials upp_bnd k n v otc).next ≤ n + k := by
  intro k
  induction k with
  | zero => intro n v otc; simp [trialLoop, RoundEnd.next]
  | succ k ih =>
    intro n v otc
    unfold trialLoop
    dsimp only
    generalize (if slow n = true then otc + 1 else otc) = b
    by_cases hv : v < trials
    · rw [if_pos hv]
      by_cases hval : valid n = true
      · rw [if_pos hval]
        by_cases hup : upp_bnd ≤ b
        · rw [if_pos hup]
          simp [RoundEnd.next]
        · rw [if_neg hup]
          have := ih (n + 1) (v + 1) b
          omega
      · rw [if_neg hval]
        have := ih (n + 1) v otc
        omega
    · rw [if_neg hv]
      simp [RoundEnd.next]

lemma roundsLoop_le : ∀ (r n otc : ℕ),
    (roundsLoop valid slow trials low_bnd upp_bnd r n otc).2 ≤ n + r * maxAttempts trials := by
  intro r
  induction r with
  | zero => intro n otc; simp [roundsLoop]
  | succ r ih =>
    intro n otc
    have hround := trialLoop_next_le valid slow trials upp_bnd (maxAttempts trials) n 0 0
    unfold roundsLoop
    split
    · rename_i n' o heq
      rw [heq] at hround
      simp only [RoundEnd.next] at hround
      rw [Nat.succ_mul]
      omega
    · rename_i n' v o heq
      rw [heq] at hround
      simp only [RoundEnd.next] at hround
      have := ih n' o
      rw [Nat.succ_mul]
      split_ifs <;> omega

end Count

/-! ## Two streams in lockstep -/

/-- Two ends of a round on streams in lockstep: the first returned `EV_POS`, or both left
the loop at the same trial with the same valid trials and the first with the larger
count. -/
inductive RoundLe : RoundEnd → RoundEnd → Prop where
  | pos (n otc : ℕ) (e : RoundEnd) : RoundLe (.pos n otc) e
  | done (n v : ℕ) {otc₁ otc₂ : ℕ} : otc₂ ≤ otc₁ → RoundLe (.done n v otc₁) (.done n v otc₂)

lemma toInt_le_evPos (r : EvTestRes) : r.toInt ≤ EvTestRes.evPos.toInt := by
  cases r <;> decide

lemma evNeg_toInt_le (r : EvTestRes) : EvTestRes.evNeg.toInt ≤ r.toInt := by
  cases r <;> decide

section Mono

variable (valid : ℕ → Bool) {slow₁ slow₂ : ℕ → Bool} (trials low_bnd upp_bnd : ℕ)
  (hslow : ∀ n, slow₂ n = true → slow₁ n = true)

include hslow

/-- **A round in lockstep.** With the same valid trials and every trial over the threshold
on the second stream over it on the first, the first round returns `EV_POS` first or both
leave at the same trial, the first with the larger count.

**Proof sketch.** Induction on the attempts left; the counts keep their order at each trial,
so the second cannot reach `upp_bnd` first. -/
lemma trialLoop_mono : ∀ (k n v otc₁ otc₂ : ℕ), otc₂ ≤ otc₁ →
    RoundLe (trialLoop valid slow₁ trials upp_bnd k n v otc₁)
      (trialLoop valid slow₂ trials upp_bnd k n v otc₂) := by
  intro k
  induction k with
  | zero => intro n v otc₁ otc₂ h; exact .done n v h
  | succ k ih =>
    intro n v otc₁ otc₂ h
    -- the counts after this trial keep their order
    have hle : (if slow₂ n = true then otc₂ + 1 else otc₂) ≤
        (if slow₁ n = true then otc₁ + 1 else otc₁) := by
      by_cases h₂ : slow₂ n = true
      · simp [h₂, hslow n h₂, h]
      · by_cases h₁ : slow₁ n = true <;> simp [h₁, h₂] <;> omega
    unfold trialLoop
    dsimp only
    generalize (if slow₁ n = true then otc₁ + 1 else otc₁) = b₁ at hle ⊢
    generalize (if slow₂ n = true then otc₂ + 1 else otc₂) = b₂ at hle ⊢
    by_cases hv : v < trials
    swap
    · rw [if_neg hv, if_neg hv]
      exact .done n v h
    rw [if_pos hv, if_pos hv]
    by_cases hval : valid n = true
    swap
    · rw [if_neg hval, if_neg hval]
      exact ih (n + 1) v otc₁ otc₂ h
    rw [if_pos hval, if_pos hval]
    by_cases hup : upp_bnd ≤ b₁
    · rw [if_pos hup]
      exact .pos _ _ _
    · rw [if_neg hup, if_neg (by omega)]
      exact ih (n + 1) (v + 1) b₁ b₂ hle

/-- **The rounds are monotone**: a larger count of trials over the threshold never gives a
smaller result. -/
lemma roundsLoop_mono : ∀ (r n otc₁ otc₂ : ℕ), otc₂ ≤ otc₁ →
    (roundsLoop valid slow₂ trials low_bnd upp_bnd r n otc₂).1.toInt ≤
      (roundsLoop valid slow₁ trials low_bnd upp_bnd r n otc₁).1.toInt := by
  intro r
  induction r with
  | zero =>
    intro n otc₁ otc₂ h
    simp only [roundsLoop]
    split_ifs <;> first | decide | omega
  | succ r ih =>
    intro n otc₁ otc₂ h
    have hround := trialLoop_mono valid trials upp_bnd hslow (maxAttempts trials) n 0 0 0 le_rfl
    unfold roundsLoop
    generalize trialLoop valid slow₁ trials upp_bnd (maxAttempts trials) n 0 0 = e₁ at hround ⊢
    generalize trialLoop valid slow₂ trials upp_bnd (maxAttempts trials) n 0 0 = e₂ at hround ⊢
    cases hround with
    | pos n' o e => exact toInt_le_evPos _
    | done n' v ho =>
      -- the same valid trials: both decide, or both go on, at the same trial
      rename_i o₁ o₂
      dsimp only
      by_cases hv : v < trials / 2
      · simp only [hv, if_true]
        exact ih n' o₁ o₂ ho
      simp only [hv, if_false]
      by_cases hu₂ : upp_bnd ≤ o₂
      · rw [if_pos hu₂, if_pos (le_trans hu₂ ho)]
      rw [if_neg hu₂]
      by_cases hl₂ : o₂ < low_bnd
      · rw [if_pos hl₂]
        exact evNeg_toInt_le _
      rw [if_neg hl₂]
      by_cases hu₁ : upp_bnd ≤ o₁
      · rw [if_pos hu₁]
        exact toInt_le_evPos _
      rw [if_neg hu₁, if_neg (by omega)]
      exact ih n' o₁ o₂ ho

end Mono

/-! ## Where a decision comes from -/

section Decision

variable (valid slow : ℕ → Bool) (trials low_bnd upp_bnd : ℕ)

/-- A round returns `EV_POS` from inside its loop only with `otc` at `upp_bnd`. -/
lemma trialLoop_pos : ∀ (k n v otc : ℕ) {n' otc' : ℕ},
    trialLoop valid slow trials upp_bnd k n v otc = .pos n' otc' → upp_bnd ≤ otc' := by
  intro k
  induction k with
  | zero => intro n v otc n' otc' h; simp [trialLoop] at h
  | succ k ih =>
    intro n v otc n' otc' h
    unfold trialLoop at h
    dsimp only at h
    generalize (if slow n = true then otc + 1 else otc) = b at h
    by_cases hv : v < trials
    · rw [if_pos hv] at h
      by_cases hval : valid n = true
      · rw [if_pos hval] at h
        by_cases hup : upp_bnd ≤ b
        · rw [if_pos hup] at h
          cases h
          exact hup
        · rw [if_neg hup] at h
          exact ih _ _ _ h
      · rw [if_neg hval] at h
        exact ih _ _ _ h
    · rw [if_neg hv] at h
      cases h

variable {valid slow trials low_bnd upp_bnd} {r₀ n₀ : ℕ}

/-- The next round of a call, after one ending at `next` without a decision. -/
lemma RoundFrom.next_of_eq {r n : ℕ} (h : RoundFrom valid slow trials low_bnd upp_bnd r₀ n₀ (r + 1) n)
    {e : RoundEnd} (he : trialLoop valid slow trials upp_bnd (maxAttempts trials) n 0 0 = e)
    (hu : e.Undecided trials low_bnd upp_bnd) :
    RoundFrom valid slow trials low_bnd upp_bnd r₀ n₀ r e.next := by
  subst he
  exact .next h hu

/-- **`EV_POS` comes from a round of the call that counted `upp_bnd` trials over the
threshold.** -/
lemma roundsLoop_evPos : ∀ (r n otc : ℕ), RoundFrom valid slow trials low_bnd upp_bnd r₀ n₀ r n →
    (roundsLoop valid slow trials low_bnd upp_bnd r n otc).1 = .evPos →
    ∃ r' n', RoundFrom valid slow trials low_bnd upp_bnd r₀ n₀ (r' + 1) n' ∧
      upp_bnd ≤ (trialLoop valid slow trials upp_bnd (maxAttempts trials) n' 0 0).otc := by
  intro r
  induction r with
  | zero =>
    intro n otc _ h
    simp only [roundsLoop] at h
    split_ifs at h
  | succ r ih =>
    intro n otc hfrom h
    unfold roundsLoop at h
    split at h
    · rename_i n' o heq
      -- `return EV_POS` inside the loop
      refine ⟨r, n, hfrom, ?_⟩
      rw [heq]
      exact trialLoop_pos valid slow trials upp_bnd _ _ _ _ heq
    · rename_i n' v o heq
      split_ifs at h with hv hu hl
      · exact ih n' o (hfrom.next_of_eq heq (.inl hv)) h
      · exact ⟨r, n, hfrom, by rw [heq]; exact hu⟩
      · exact ih n' o (hfrom.next_of_eq heq (.inr ⟨by omega, by omega⟩)) h

/-- **`EV_NEG` comes from a round of the call with at least `trials / 2` valid trials and
fewer than `low_bnd` over the threshold.** -/
lemma roundsLoop_evNeg : ∀ (r n otc : ℕ), RoundFrom valid slow trials low_bnd upp_bnd r₀ n₀ r n →
    (roundsLoop valid slow trials low_bnd upp_bnd r n otc).1 = .evNeg →
    ∃ r' n' next v otc', RoundFrom valid slow trials low_bnd upp_bnd r₀ n₀ (r' + 1) n' ∧
      trialLoop valid slow trials upp_bnd (maxAttempts trials) n' 0 0 = .done next v otc' ∧
      trials / 2 ≤ v ∧ otc' < low_bnd := by
  intro r
  induction r with
  | zero =>
    intro n otc _ h
    simp only [roundsLoop] at h
    split_ifs at h
  | succ r ih =>
    intro n otc hfrom h
    unfold roundsLoop at h
    split at h
    · cases h
    · rename_i n' v o heq
      split_ifs at h with hv hu hl
      · exact ih n' o (hfrom.next_of_eq heq (.inl hv)) h
      · exact ⟨r, n, n', v, o, hfrom, heq, by omega, hl⟩
      · exact ih n' o (hfrom.next_of_eq heq (.inr ⟨by omega, by omega⟩)) h

end Decision

/-! ## The vote -/

lemma unsureRetry_eq (conf : EvBuildConf) : unsureRetry conf = max conf.unsure_retry 1 := by
  unfold unsureRetry
  split_ifs <;> omega

/-- **`test_eviction_detailed` is a monotone vote.** For two streams of trials with the same
valid flags, every trial over the threshold in the second being over it in the first:
the result on the first is at least the result on the second, in the order
`EV_NEG < EV_NEG_UNSURE < EV_POS_UNSURE < EV_POS`; a call uses at most
`max(unsure_retry, 1) · 4 · trials` trials, `trials` scaled; `EV_POS` comes from a round
that counted the scaled `upp_bnd` valid trials over the threshold, and `EV_NEG` from a round
with half the trials valid and fewer than the scaled `low_bnd` over it. The `u32` products
need no bound: where they wrap, they wrap for both streams alike. -/
theorem testEvictionDetailed_vote (interrupt_thresh : ℕ) (conf : EvBuildConf)
    (s₁ s₂ : ℕ → Trial)
    (hvalid : ∀ n, validFlags interrupt_thresh s₁ n = validFlags interrupt_thresh s₂ n)
    (hover : ∀ n, overFlags conf.lat_thresh s₂ n = true → overFlags conf.lat_thresh s₁ n = true) :
    (testEvictionDetailed interrupt_thresh conf s₂).1.toInt ≤
        (testEvictionDetailed interrupt_thresh conf s₁).1.toInt ∧
      (testEvictionDetailed interrupt_thresh conf s₁).2 ≤
        max conf.unsure_retry 1 * (4 * scaleBound conf conf.trials) ∧
      ((testEvictionDetailed interrupt_thresh conf s₁).1 = .evPos →
        ∃ r n, RoundFrom (validFlags interrupt_thresh s₁) (overFlags conf.lat_thresh s₁)
            (scaleBound conf conf.trials) (scaleBound conf conf.low_bnd)
            (scaleBound conf conf.upp_bnd) (unsureRetry conf) 0 (r + 1) n ∧
          scaleBound conf conf.upp_bnd ≤ (trialLoop (validFlags interrupt_thresh s₁)
            (overFlags conf.lat_thresh s₁) (scaleBound conf conf.trials)
            (scaleBound conf conf.upp_bnd) (maxAttempts (scaleBound conf conf.trials)) n 0 0).otc) ∧
      ((testEvictionDetailed interrupt_thresh conf s₁).1 = .evNeg →
        ∃ r n next v otc, RoundFrom (validFlags interrupt_thresh s₁)
            (overFlags conf.lat_thresh s₁) (scaleBound conf conf.trials)
            (scaleBound conf conf.low_bnd) (scaleBound conf conf.upp_bnd) (unsureRetry conf) 0
            (r + 1) n ∧
          trialLoop (validFlags interrupt_thresh s₁) (overFlags conf.lat_thresh s₁)
            (scaleBound conf conf.trials) (scaleBound conf conf.upp_bnd)
            (maxAttempts (scaleBound conf conf.trials)) n 0 0 = .done next v otc ∧
          scaleBound conf conf.trials / 2 ≤ v ∧ otc < scaleBound conf conf.low_bnd) := by
  have hv : validFlags interrupt_thresh s₂ = validFlags interrupt_thresh s₁ :=
    funext fun n => (hvalid n).symm
  refine ⟨?_, ?_, fun h => roundsLoop_evPos _ 0 0 .start h,
    fun h => roundsLoop_evNeg _ 0 0 .start h⟩
  · unfold testEvictionDetailed
    rw [hv]
    exact roundsLoop_mono _ _ _ _ hover _ 0 0 0 le_rfl
  · have hmax : maxAttempts (scaleBound conf conf.trials) ≤ 4 * scaleBound conf conf.trials := by
      unfold maxAttempts
      rw [Nat.mul_comm]
      exact Nat.mod_le _ _
    calc (testEvictionDetailed interrupt_thresh conf s₁).2
        ≤ 0 + unsureRetry conf * maxAttempts (scaleBound conf conf.trials) :=
          roundsLoop_le _ _ _ _ _ _ 0 0
      _ ≤ max conf.unsure_retry 1 * (4 * scaleBound conf conf.trials) := by
          rw [Nat.zero_add, unsureRetry_eq]
          exact Nat.mul_le_mul_left _ hmax

/-- Trials of latency `150` against trials of latency `50`, for the default `L2` bounds with
the threshold `100`. -/
theorem testEvictionDetailed_vote_l2 :
    (∀ n, validFlags 1000 (fun _ => ⟨0, 0, 150⟩) n = validFlags 1000 (fun _ => ⟨0, 0, 50⟩) n) ∧
    (∀ n, overFlags 100 (fun _ => ⟨0, 0, 50⟩) n = true →
      overFlags 100 (fun _ => ⟨0, 0, 150⟩) n = true) ∧
    (testEvictionDetailed 1000 (initDefL2Conf 0 100) (fun _ => ⟨0, 0, 50⟩)).1.toInt ≤
      (testEvictionDetailed 1000 (initDefL2Conf 0 100) (fun _ => ⟨0, 0, 150⟩)).1.toInt :=
  ⟨fun _ => rfl, fun _ _ => rfl,
    (testEvictionDetailed_vote 1000 (initDefL2Conf 0 100) (fun _ => ⟨0, 0, 150⟩)
      (fun _ => ⟨0, 0, 50⟩) (fun _ => rfl) (fun _ _ => rfl)).1⟩

end EvCache
