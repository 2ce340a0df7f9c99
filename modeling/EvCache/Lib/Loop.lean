import Mathlib.Order.Basic

set_option autoImplicit false

/-!
# Fuel-bounded `while` loops with `break`

A C loop `while (guard) { body }` whose body may `break`, and whose memory accesses may
fault, as a function of an explicit state. The body returns either the next state
(`FuelLoop.Next.cont`) or the state at a `break` (`FuelLoop.Next.brk`), inside `Except ε`
so that a faulting access ends the run with its fault. The loop gets an explicit amount of
fuel, one unit per pass of the body; a loop that still wants to run when the fuel is spent
stops with a designated error.

The results are the two rules every loop of a model is proved with: the invariant rule
(partial correctness), and the variant rule, which adds a measure that every pass lowers
and concludes that enough fuel gives a result.

## Main definitions

* `FuelLoop.Next` — what one pass of the body asks for.
* `FuelLoop.run` — the loop, run for at most `fuel` passes.

## Main results

* `FuelLoop.run_inv` — the invariant rule: a result satisfies the exit condition.
* `FuelLoop.run_spec` — the variant rule: fuel above the measure gives a result, and it
  satisfies the exit condition.
-/

namespace FuelLoop

variable {σ ε : Type*}

/-- What one pass of a loop body asks for: test the guard again from a new state, or leave
the loop at once (a `break`) in a final state. -/
inductive Next (σ : Type*) where
  | cont (s : σ)
  | brk (s : σ)

/-- `while (guard s) { body }` for at most `fuel` passes of the body. A pass that faults ends
the run with its fault; a loop whose guard still holds when the fuel is spent ends with
`stuck`. -/
def run (guard : σ → Bool) (body : σ → Except ε (Next σ)) (stuck : ε) :
    ℕ → σ → Except ε σ
  | 0, s => if guard s then .error stuck else .ok s
  | fuel + 1, s =>
    if guard s then
      match body s with
      | .ok (.cont s') => run guard body stuck fuel s'
      | .ok (.brk s') => .ok s'
      | .error e => .error e
    else .ok s

section Rules

variable {guard : σ → Bool} {body : σ → Except ε (Next σ)} {stuck : ε}

@[simp] lemma run_of_guard_false {fuel : ℕ} {s : σ} (h : guard s = false) :
    run guard body stuck fuel s = .ok s := by
  cases fuel <;> simp [run, h]

lemma run_succ_cont {fuel : ℕ} {s s' : σ} (h : guard s = true)
    (hb : body s = .ok (.cont s')) :
    run guard body stuck (fuel + 1) s = run guard body stuck fuel s' := by
  simp [run, h, hb]

lemma run_succ_brk {fuel : ℕ} {s s' : σ} (h : guard s = true)
    (hb : body s = .ok (.brk s')) :
    run guard body stuck (fuel + 1) s = .ok s' := by
  simp [run, h, hb]

/-- **The invariant rule.** If `I` holds on entry, every pass of the body from a state of
`I` where the guard holds either continues in `I` or breaks in `Q`, and `I` with a false
guard gives `Q`, then every result of the loop satisfies `Q`.

**Proof sketch.** Induction on the fuel, following `run`. -/
lemma run_inv (guard : σ → Bool) (body : σ → Except ε (Next σ)) (stuck : ε)
    (I Q : σ → Prop)
    (hstep : ∀ s, I s → guard s = true →
      (∀ s', body s = .ok (.cont s') → I s') ∧ (∀ s', body s = .ok (.brk s') → Q s'))
    (hexit : ∀ s, I s → guard s = false → Q s) :
    ∀ fuel s r, I s → run guard body stuck fuel s = .ok r → Q r := by
  intro fuel
  induction fuel with
  | zero =>
    intro s r hs hr
    cases hg : guard s
    · simp [run, hg] at hr
      exact hr ▸ hexit s hs hg
    · simp [run, hg] at hr
  | succ fuel ih =>
    intro s r hs hr
    cases hg : guard s
    · simp [run, hg] at hr
      exact hr ▸ hexit s hs hg
    · obtain ⟨hc, hb⟩ := hstep s hs hg
      simp only [run, hg, if_true] at hr
      cases hbody : body s with
      | error e => simp [hbody] at hr
      | ok n =>
        cases n with
        | cont s' =>
          rw [hbody] at hr
          exact ih s' r (hc s' hbody) hr
        | brk s' =>
          rw [hbody] at hr
          exact Except.ok.inj hr ▸ hb s' hbody

/-- **The variant rule.** Under the hypotheses of the invariant rule made total (every
guarded pass from `I` succeeds, and a continuing pass lowers the measure `μ`), a loop given
more fuel than `μ` of its start state returns a result, and the result satisfies `Q`.

**Proof sketch.** Induction on the fuel. A continuing pass lowers `μ` by at least one and
spends one unit of fuel, so the fuel stays above the measure. -/
lemma run_spec (guard : σ → Bool) (body : σ → Except ε (Next σ)) (stuck : ε)
    (I Q : σ → Prop) (μ : σ → ℕ)
    (hstep : ∀ s, I s → guard s = true →
      (∃ s', body s = .ok (.cont s') ∧ I s' ∧ μ s' < μ s) ∨
      (∃ s', body s = .ok (.brk s') ∧ Q s'))
    (hexit : ∀ s, I s → guard s = false → Q s) :
    ∀ fuel s, I s → μ s < fuel → ∃ r, run guard body stuck fuel s = .ok r ∧ Q r := by
  intro fuel
  induction fuel with
  | zero => intro s _ h; omega
  | succ fuel ih =>
    intro s hs hμ
    cases hg : guard s
    · exact ⟨s, by simp [run, hg], hexit s hs hg⟩
    · rcases hstep s hs hg with ⟨s', hb, hs', hlt⟩ | ⟨s', hb, hq⟩
      · rw [run_succ_cont hg hb]
        exact ih s' hs' (by omega)
      · exact ⟨s', run_succ_brk hg hb, hq⟩

end Rules

end FuelLoop
