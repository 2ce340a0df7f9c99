import EvCache.Vtop.Detect

set_option autoImplicit false

/-!
# What the topology closure infers

The latency classes of a topology form an ultrametric: the class of `(i, j)` is at most the
larger class of `(i, k)` and `(k, j)`. `apply_optimization` fills the unknown entries of
`top_stack` with that larger class. Where the two legs differ, an ultrametric forces exactly
that class on `(i, j)`; where they are equal it only bounds the class of `(i, j)` from above.

This file proves what the closure does keep for every class function that is an ultrametric
and every partial matrix that agrees with it: every measured entry is left as it is, and
every entry is an upper bound of the class (`applyOptimization_sound`). It also shows that an
entry it writes need not be the class: two vCPUs of one socket, both measured against a vCPU
of another socket only, are put in different sockets (`applyOptimization_unforced`).

## Main definitions

* `EvCache.Vtop.Ultrametric` — a class function that is symmetric, `1` on the diagonal and an
  ultrametric.
* `EvCache.Vtop.PartialOf` — a partial matrix of classes whose known entries are those of a
  class function.
* `EvCache.Vtop.ClosureInv` — the invariant of the closure.

## Main results

* `EvCache.Vtop.applyOptimization_sound` — the closure keeps the measured entries and writes
  only upper bounds of the class.
* `EvCache.Vtop.applyOptimization_unforced` — an entry the closure writes that is not the
  class.

## References

* `src/vm_tools/vtop.c`, lines 361-420.
-/

namespace EvCache.Vtop

/-- A class function on `[0, n)`: symmetric, `1` on the diagonal, and an ultrametric. -/
structure Ultrametric (n : ℕ) (c : ℕ → ℕ → ℕ) : Prop where
  symm : ∀ i < n, ∀ j < n, c i j = c j i
  diag : ∀ i < n, c i i = 1
  le_max : ∀ i < n, ∀ j < n, ∀ k < n, c i j ≤ max (c i k) (c k j)

/-- A partial matrix of the classes `c` on `[0, n)`: symmetric, `1` on the diagonal, and every
known entry the class. -/
structure PartialOf (n : ℕ) (c : ℕ → ℕ → ℕ) (top : TopStack) : Prop where
  symm : ∀ i < n, ∀ j < n, top.get i j = top.get j i
  diag : ∀ i < n, top.get i i = 1
  agree : ∀ i < n, ∀ j < n, top.get i j ≠ 0 → top.get i j = c i j

/-- The invariant of the closure started from `top₀`: the entries known in `top₀` are
unchanged, and every known entry bounds the class from above. -/
structure ClosureInv (n : ℕ) (c : ℕ → ℕ → ℕ) (top₀ top : TopStack) : Prop where
  keep : ∀ i < n, ∀ j < n, top₀.get i j ≠ 0 → top.get i j = top₀.get i j
  upper : ∀ i < n, ∀ j < n, top.get i j ≠ 0 → c i j ≤ top.get i j

section Closure

variable {n : ℕ} {c : ℕ → ℕ → ℕ} {top₀ : TopStack}

lemma PartialOf.closureInv (h : PartialOf n c top₀) : ClosureInv n c top₀ top₀ where
  keep _ _ _ _ _ := rfl
  upper i hi j hj hne := (h.agree i hi j hj hne).ge

lemma get_setLatencyPair (top : TopStack) (x y cls a b : ℕ) :
    (setLatencyPair top x y cls).get a b =
      if a = x ∧ b = y ∨ a = y ∧ b = x then cls else top.get a b := rfl

/-- The two entries `set_latency_pair` writes read alike in a symmetric matrix. -/
lemma eq_of_pair {f : ℕ → ℕ → ℕ} {i j a b : ℕ} (hsymm : f j i = f i j)
    (hab : a = i ∧ b = j ∨ a = j ∧ b = i) : f a b = f i j := by
  rcases hab with ⟨rfl, rfl⟩ | ⟨rfl, rfl⟩
  · rfl
  · exact hsymm

/-- A path through `k` over two known legs bounds the class of its ends. -/
lemma ClosureInv.le_via (hc : Ultrametric n c) {top : TopStack} (h : ClosureInv n c top₀ top)
    {i j k : ℕ} (hi : i < n) (hj : j < n) (hk : k < n) (hik : top.get i k ≠ 0)
    (hkj : top.get k j ≠ 0) : c i j ≤ max (top.get i k) (top.get k j) := by
  have hpath := hc.le_max i hi j hj k hk
  have hleft := h.upper i hi k hk hik
  have hright := h.upper k hk j hj hkj
  omega

/-- An entry known in `top₀` is never relaxed: the path it would take is not shorter. -/
lemma ClosureInv.not_relax (hc : Ultrametric n c) (h0 : PartialOf n c top₀) {top : TopStack}
    (h : ClosureInv n c top₀ top) {i j k : ℕ} (hi : i < n) (hj : j < n) (hk : k < n)
    (hik : top.get i k ≠ 0) (hkj : top.get k j ≠ 0) (hknown : top₀.get i j ≠ 0) :
    ¬(top.get i j = 0 ∨ max (top.get i k) (top.get k j) < top.get i j) := by
  have hij : top.get i j = c i j := (h.keep i hi j hj hknown).trans (h0.agree i hi j hj hknown)
  have hle := h.le_via hc hi hj hk hik hkj
  rw [hij]
  intro hw
  rcases hw with hz | hlt
  · exact hknown ((h0.agree i hi j hj hknown).trans hz)
  · exact absurd hle (not_le.mpr hlt)

/-- **One relaxation keeps the invariant**, and a known entry stays known. -/
lemma ClosureInv.relaxVia (hc : Ultrametric n c) (h0 : PartialOf n c top₀) {top : TopStack}
    (h : ClosureInv n c top₀ top) {k i j : ℕ} (hk : k < n) (hi : i < n) (hj : j < n)
    (hik : top.get i k ≠ 0) :
    ClosureInv n c top₀ (Vtop.relaxVia k i top j) ∧ ∀ a b, top.get a b ≠ 0 →
      (Vtop.relaxVia k i top j).get a b ≠ 0 := by
  unfold Vtop.relaxVia
  by_cases hkj : top.get k j = 0
  · simp only [hkj, if_true]
    exact ⟨h, fun _ _ hab => hab⟩
  by_cases hw : top.get i j = 0 ∨ max (top.get i k) (top.get k j) < top.get i j
  · simp only [hkj, hw, if_false, if_true]
    have hvia := h.le_via hc hi hj hk hik hkj
    have hpos : max (top.get i k) (top.get k j) ≠ 0 := by omega
    refine ⟨⟨fun a ha b hb hknown => ?_, fun a ha b hb hne => ?_⟩, fun a b hab => ?_⟩
    · -- the written entries `(i, j)` and `(j, i)` are not known in `top₀`
      rw [get_setLatencyPair]
      split_ifs with hab
      · rw [eq_of_pair (h0.symm j hj i hi) hab] at hknown
        exact absurd hw (h.not_relax hc h0 hi hj hk hik hkj hknown)
      · exact h.keep a ha b hb hknown
    · rw [get_setLatencyPair] at hne ⊢
      split_ifs at hne ⊢ with hab
      · rw [eq_of_pair (hc.symm j hj i hi) hab]
        exact hvia
      · exact h.upper a ha b hb hne
    · rw [get_setLatencyPair]
      split_ifs
      · exact hpos
      · exact hab
  · simp only [hkj, hw, if_false]
    exact ⟨h, fun _ _ hab => hab⟩

/-- A row of the closure keeps the invariant. -/
lemma ClosureInv.relaxRow (hc : Ultrametric n c) (h0 : PartialOf n c top₀) {top : TopStack}
    (h : ClosureInv n c top₀ top) {k i : ℕ} (hk : k < n) (hi : i < n) :
    ClosureInv n c top₀ (Vtop.relaxRow n k top i) := by
  unfold Vtop.relaxRow
  split_ifs with hik
  · exact h
  -- the entry `(i, k)` stays known along the row, so every step of it is a relaxation
  refine (List.foldlRecOn (motive := fun t => ClosureInv n c top₀ t ∧ t.get i k ≠ 0)
    (List.range n) (Vtop.relaxVia k i) ⟨h, hik⟩ fun t ht j hj => ?_).1
  obtain ⟨hinv, hne⟩ := (ht.1.relaxVia hc h0 hk hi (List.mem_range.mp hj) ht.2)
  exact ⟨hinv, hne i k ht.2⟩

/-- **What the closure keeps.** For a class function that is an ultrametric and a partial
matrix that agrees with it, `apply_optimization` leaves every measured entry as it is, and every
known entry of its result bounds the class from above.

**Proof sketch.** `ClosureInv` holds of the input and is kept by every relaxation
(`ClosureInv.relaxVia`): a written value is the larger class of two known legs, which bounds
the class by the ultrametric, and for the same reason a measured entry is never relaxed. -/
theorem applyOptimization_sound (hc : Ultrametric n c) (h0 : PartialOf n c top₀) :
    (∀ i < n, ∀ j < n, top₀.get i j ≠ 0 → (applyOptimization n top₀).get i j = top₀.get i j) ∧
      ∀ i < n, ∀ j < n, (applyOptimization n top₀).get i j ≠ 0 →
        c i j ≤ (applyOptimization n top₀).get i j := by
  have h : ClosureInv n c top₀ (applyOptimization n top₀) := by
    unfold applyOptimization
    refine List.foldlRecOn (List.range n) _ h0.closureInv fun t ht k hk => ?_
    exact List.foldlRecOn (List.range n) _ ht fun t' ht' i hi =>
      ht'.relaxRow hc h0 (List.mem_range.mp hk) (List.mem_range.mp hi)
  exact ⟨h.keep, h.upper⟩

/-- Two vCPUs of one socket measured against a third on another socket only. -/
theorem applyOptimization_sound_three :
    (∀ i < 3, ∀ j < 3, (⟨fun i j => if i = j then 1 else if i = 2 ∨ j = 2 then 3 else 0⟩ :
        TopStack).get i j ≠ 0 →
      (applyOptimization 3 ⟨fun i j => if i = j then 1 else if i = 2 ∨ j = 2 then 3 else 0⟩).get
        i j = (⟨fun i j => if i = j then 1 else if i = 2 ∨ j = 2 then 3 else 0⟩ : TopStack).get i j) ∧
      ∀ i < 3, ∀ j < 3,
        (applyOptimization 3 ⟨fun i j => if i = j then 1 else if i = 2 ∨ j = 2 then 3 else 0⟩).get
          i j ≠ 0 →
        (fun i j => if i = j then 1 else if i = 2 ∨ j = 2 then 3 else 2) i j ≤
          (applyOptimization 3 ⟨fun i j => if i = j then 1 else if i = 2 ∨ j = 2 then 3 else 0⟩).get
            i j :=
  applyOptimization_sound ⟨by decide, by decide, by decide⟩ ⟨by decide, by decide, by decide⟩

end Closure

/-- **An entry the closure writes that is not the class.** vCPUs `0` and `1` share a socket
(class `2`) and vCPU `2` is on another (class `3`). Measured against `2` only, they are put in
different sockets: the closure writes class `3` at `(0, 1)`, the larger class of the two equal
legs through `2`. -/
theorem applyOptimization_unforced :
    Ultrametric 3 (fun i j => if i = j then 1 else if i = 2 ∨ j = 2 then 3 else 2) ∧
      PartialOf 3 (fun i j => if i = j then 1 else if i = 2 ∨ j = 2 then 3 else 2)
        ⟨fun i j => if i = j then 1 else if i = 2 ∨ j = 2 then 3 else 0⟩ ∧
      (applyOptimization 3 ⟨fun i j => if i = j then 1 else if i = 2 ∨ j = 2 then 3 else 0⟩).get
        0 1 = 3 ∧
      (fun i j => if i = j then 1 else if i = 2 ∨ j = 2 then 3 else 2) 0 1 = 2 := by
  refine ⟨⟨by decide, by decide, by decide⟩, ⟨by decide, by decide, by decide⟩, by decide, rfl⟩

end EvCache.Vtop
