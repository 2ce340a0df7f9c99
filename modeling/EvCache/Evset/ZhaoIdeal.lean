import EvCache.Evset.ZhaoSafety

set_option autoImplicit false

/-!
# `build_evset_zhao` against the ideal oracle

Under the ideal oracle (`EvCache.idealTest`: a window evicts the target exactly when it
holds `n_ways` lines congruent to it), with `n_ways ≥ 1` and `extra_cong = 0`, every line
`build_evset_zhao` copies into `evset->addrs` is congruent to the target. With `slack = 0`,
at least one backtrack allowed, `ev_cap ≥ n_ways` and `n_ways` congruent lines among the
candidates, it reports no error and the set has exactly `n_ways` lines: a minimal eviction
set.

## Design

The proof adds invariants to the safety invariant `EvCache.ZhaoSafe`, and proves them phase
by phase on the equations `EvCache.zhaoBody_eq_ok` gives:

* the halving loop keeps the window `cands[offset..lower)` failing and, once a probe passed,
  `cands[offset..upper)` passing (`EvCache.BsIdeal`); when the two bounds meet, the line at
  `upper - 1 = lower` is congruent, and that is the line `zhaoAdd` swaps into the set;
* `EvCache.ZhaoIdeal`: `cands[0..evsz)` are congruent and fewer than `n_ways`. A set of
  `n_ways` congruent lines evicts, and pruning keeps all of it, so the loop ends there;
* `EvCache.ZhaoMinimal`, for the second part: `cands[0..upper)` keeps `n_ways` congruent
  lines and no iteration has backtracked, so the search always ends on a passing window.

## Main results

* `EvCache.zhaoSearch_ideal` — what the halving loop keeps under the ideal oracle.
* `EvCache.zhaoBody_ideal` — one iteration keeps `ZhaoIdeal`, and `ZhaoMinimal` when
  `slack = 0`.
* `EvCache.buildEvsetZhao_ideal` — the builder against the ideal oracle.

## References

* `src/src/evset.c`, lines 847-961 (`build_evset_zhao`) and 613-634 (`prune_evcands`).
-/

namespace EvCache

open CArray FuelLoop

variable {α : Type} (r : α → α → Prop) [DecidableRel r] (target : α)

/-! ## Windows of the candidate array -/

/-- One more line in a window adds one congruent line exactly when it is congruent. -/
lemma congCount_window_succ (a : List α) {lo c : ℕ} (hlo : lo ≤ c) (hc : c < a.length) :
    congCount r target ((a.take (c + 1)).drop lo) =
      congCount r target ((a.take c).drop lo) + if r a[c] target then 1 else 0 := by
  have h₁ := countP_window (fun x => decide (r x target)) a hlo
  have h₂ := countP_window (fun x => decide (r x target)) a (show lo ≤ c + 1 by omega)
  have h₃ := countP_take_succ (fun x => decide (r x target)) a hc
  unfold congCount
  by_cases hx : r a[c] target
  · simp only [hx, decide_true, if_true] at h₃ ⊢
    omega
  · simp only [hx, decide_false, Bool.false_eq_true, if_false] at h₃ ⊢
    omega

/-- **The line where a failing window turns into a passing one is congruent.** -/
lemma cong_of_window_step (W : ℕ) (cands : List α) (offset : ℕ) {l : ℕ} (ho : offset ≤ l)
    (hl : l < cands.length) (hfail : congCount r target (bsWindow cands offset l) < W)
    (hpass : W ≤ congCount r target (bsWindow cands offset ((l : ℤ) + 1))) :
    r cands[l] target := by
  have e : ((l : ℤ) + 1).toNat = l + 1 := by omega
  simp only [bsWindow, Int.toNat_natCast] at hfail
  simp only [bsWindow, e, congCount_window_succ r target cands ho hl] at hpass
  by_contra hx
  simp only [hx, if_false] at hpass
  omega

/-! ## The halving loop -/

section Search

variable (W : ℕ) (cands : List α) (offset : ℕ) (upper₀ : ℤ)

/-- What the halving loop keeps under the ideal oracle, from the upper bound `upper₀`: the
window up to `lower` fails, and the window up to `upper` passes once a probe passed (before
that, `upper` is still `upper₀`). -/
structure BsIdeal (b : BsState Unit) : Prop where
  lower_fails : congCount r target (bsWindow cands offset b.lower) < W
  upper_passes : b.has_pos = false ∧ b.upper = upper₀ ∨
    b.has_pos = true ∧ W ≤ congCount r target (bsWindow cands offset b.upper)

/-- A probe under the ideal oracle moves `upper` to a passing window or `lower` to a failing
one. -/
lemma bsBody_idealTest {b : BsState Unit} (h₁ : (offset : ℤ) ≤ b.cnt)
    (h₂ : b.cnt ≤ cands.length) :
    bsBody (idealTest r W) target cands offset b = .ok (.cont
      (if W ≤ congCount r target (bsWindow cands offset b.cnt) then
        ⟨b.lower, b.cnt, (b.cnt + b.lower).tdiv 2, true, ()⟩
      else ⟨b.cnt, b.upper, (b.upper + b.cnt).tdiv 2, b.has_pos, ()⟩)) := by
  by_cases hW : W ≤ congCount r target (bsWindow cands offset b.cnt)
  · rw [if_pos hW]
    exact bsBody_pass (idealTest r W) target cands offset h₁ h₂ (by simp [idealTest, hW])
  · rw [if_neg hW]
    exact bsBody_fail (idealTest r W) target cands offset h₁ h₂ (by simp [idealTest, hW])

lemma bsBody_ideal {lower₀ : ℤ} (hup : upper₀ ≤ cands.length) {b : BsState Unit}
    (hb : BsFrame offset lower₀ upper₀ b) (hi : BsIdeal r target W cands offset upper₀ b)
    (hg : bsGuard b = true) {b' : BsState Unit}
    (h : bsBody (idealTest r W) target cands offset b = .ok (.cont b')) :
    BsIdeal r target W cands offset upper₀ b' := by
  have hgap : 1 < b.upper - b.lower := of_decide_eq_true hg
  obtain ⟨hc₁, hc₂⟩ := hb.cnt_mem hgap
  have := hb.offset_le
  have := hb.lower_ge
  have := hb.upper_le
  rw [bsBody_idealTest r target W cands offset (by omega) (by omega)] at h
  split_ifs at h with hW
  · -- a pass: the window up to the probe passes, and it becomes `upper`
    cases h
    exact ⟨hi.lower_fails, .inr ⟨rfl, hW⟩⟩
  · -- a failure: the probe becomes `lower`
    cases h
    exact ⟨by dsimp only; omega, hi.upper_passes⟩

/-- **The halving loop under the ideal oracle.** Started from a failing window up to `lower`,
it ends with `upper = lower + 1`, the window up to `lower` failing, and the window up to
`upper` passing once a probe passed.

**Proof sketch.** The invariant rule with `BsFrame` and `BsIdeal`; `bsBody_frame` says that
every probe continues the loop. -/
theorem zhaoSearch_ideal {lower cnt : ℤ} (ho : (offset : ℤ) ≤ lower) (hlu : lower < upper₀)
    (hup : upper₀ ≤ cands.length) (hcnt : 1 < upper₀ - lower → lower < cnt ∧ cnt < upper₀)
    (hfail : congCount r target (bsWindow cands offset lower) < W) {b : BsState Unit}
    (h : zhaoSearch (idealTest r W) target cands offset lower upper₀ cnt () = .ok b) :
    BsFrame offset lower upper₀ b ∧ BsIdeal r target W cands offset upper₀ b ∧
      b.upper = b.lower + 1 := by
  refine run_inv (@bsGuard Unit) (bsBody (idealTest r W) target cands offset) Fault.outOfFuel
    (fun b => BsFrame offset lower upper₀ b ∧ BsIdeal r target W cands offset upper₀ b)
    (fun b => BsFrame offset lower upper₀ b ∧ BsIdeal r target W cands offset upper₀ b ∧
      b.upper = b.lower + 1) ?_ ?_ _ _ _
    ⟨⟨ho, le_refl _, hlu, le_refl _, hcnt⟩, hfail, .inl ⟨rfl, rfl⟩⟩ h
  · intro b ⟨hf, hi⟩ hg
    obtain ⟨b'', heq, hf', -⟩ := bsBody_frame (idealTest r W) target cands offset hup hf hg
    refine ⟨fun b' hb' => ?_, fun b' hb' => ?_⟩
    · rw [heq] at hb'
      cases hb'
      exact ⟨hf', bsBody_ideal r target W cands offset upper₀ hup hf hi hg heq⟩
    · rw [heq] at hb'
      cases hb'
  · intro b ⟨hf, hi⟩ hg
    have := hf.lower_lt
    simp only [bsGuard, decide_eq_false_iff_not, not_lt] at hg
    exact ⟨hf, hi, by omega⟩

end Search

/-! ## The invariants of the outer loop -/

section Outer

variable (ev : EvSet α)

/-- The invariant under the ideal oracle: the set `cands[0..evsz)` holds only lines
congruent to the target, and fewer than `n_ways` of them. -/
structure ZhaoIdeal (s : ZhaoState Unit α) : Prop where
  cong : ∀ x ∈ s.cands.take s.evsz, r x target
  evsz_lt : s.evsz < ev.target_cache.n_ways

/-- The invariant of a run that finds a minimal set: no backtrack yet, and the window
`cands[0..upper)` still evicts the target. -/
structure ZhaoMinimal (s : ZhaoState Unit α) : Prop where
  n_bctr_eq : s.n_bctr = 0
  upper_passes : ev.target_cache.n_ways ≤ congCount r target (s.cands.take s.upper.toNat)

variable {r target ev}

/-- The window that ends at the set fails: it holds fewer than `n_ways` lines. -/
lemma ZhaoIdeal.window_fails {s : ZhaoState Unit α} (hi : ZhaoIdeal r target ev s)
    (offset : ℕ) :
    congCount r target (bsWindow s.cands offset s.evsz) < ev.target_cache.n_ways := by
  have hlen : (bsWindow s.cands offset s.evsz).length ≤ s.evsz := by
    simp only [bsWindow, Int.toNat_natCast, List.length_drop, List.length_take]
    omega
  have := congCount_le_length r target (bsWindow s.cands offset s.evsz)
  have := hi.evsz_lt
  omega

/-- A window ending at `upper` that evicts lies above the set. -/
lemma ZhaoIdeal.evsz_lt_upper {s : ZhaoState Unit α} (hi : ZhaoIdeal r target ev s)
    (hm : ZhaoMinimal r target ev s) : (s.evsz : ℤ) < s.upper := by
  have hlen := congCount_le_length r target (s.cands.take s.upper.toNat)
  have := hm.upper_passes
  have := hi.evsz_lt
  simp only [List.length_take] at hlen
  omega

variable (r target ev)

/-- **The added line is congruent.** After the search, `zhaoAdd` backtracks or extends the
congruent set by the line at `upper - 1`, which lies where a failing window turns into a
passing one. -/
lemma zhaoAdd_ideal {cands₀ : List α} {s s₁ : ZhaoState Unit α} {offset : ℕ}
    {b : BsState Unit} (hs : ZhaoSafe ev cands₀ s) (hi : ZhaoIdeal r target ev s)
    (hb : BsFrame offset s.lower s.upper b)
    (hbi : BsIdeal r target ev.target_cache.n_ways s.cands offset s.upper b)
    (hend : b.upper = b.lower + 1)
    (h : zhaoAdd (idealTest r ev.target_cache.n_ways) target offset b s = .ok s₁) :
    (∀ x ∈ s₁.cands.take s₁.evsz, r x target) ∧ s₁.evsz ≤ ev.target_cache.n_ways := by
  have hlen : s.cands.length = cands₀.length := hs.perm.length_eq
  have hup := hs.upper_le
  have hlow := hs.lower_eq
  have hev := hi.evsz_lt
  obtain ⟨ho, hl, hbl, hbu, -⟩ := hb
  obtain ⟨st', ⟨-, -, hadd⟩ | ⟨hpos, hadd⟩⟩ :=
    zhaoAdd_cases (idealTest r ev.target_cache.n_ways) target offset b s (by omega) (by omega)
      (by omega)
  · rw [hadd] at h
    cases h
    exact ⟨hi.cong, by dsimp only; omega⟩
  · rw [hadd] at h
    cases h
    -- the window up to `upper` passes: a probe passed there, or the last test did
    have hpass : ev.target_cache.n_ways ≤
        congCount r target (bsWindow s.cands offset b.upper) := by
      rcases hpos with ⟨hp, -⟩ | ⟨-, ht⟩
      · rcases hbi.upper_passes with ⟨hp', -⟩ | ⟨-, hW⟩
        · rw [hp] at hp'
          cases hp'
        · exact hW
      · exact le_congCount_of_idealTest r _ ht
    obtain ⟨k, hk⟩ : ∃ k : ℕ, b.lower = k := ⟨b.lower.toNat, by omega⟩
    have hx : r s.cands[k] target := cong_of_window_step r target ev.target_cache.n_ways
      s.cands offset (by omega) (by omega) (hk ▸ hbi.lower_fails) (hk ▸ hend ▸ hpass)
    refine ⟨?_, by dsimp only; omega⟩
    have e : (b.upper - 1).toNat = k := by omega
    dsimp only
    rw [e, take_exch_succ s.cands (show s.evsz ≤ k by omega) (by omega)]
    intro x hx'
    rcases List.mem_append.mp hx' with hx' | hx'
    · exact hi.cong x hx'
    · rw [List.mem_singleton.mp hx']
      exact hx

/-- **With `slack = 0` no iteration backtracks.** The search ends on a passing window, so
`zhaoAdd` adds a line, and the window up to the new `upper` still evicts. -/
lemma zhaoAdd_minimal {cands₀ : List α} {s s₁ : ZhaoState Unit α} {b : BsState Unit}
    (hs : ZhaoSafe ev cands₀ s) (hm : ZhaoMinimal r target ev s)
    (hb : BsFrame 0 s.lower s.upper b)
    (hbi : BsIdeal r target ev.target_cache.n_ways s.cands 0 s.upper b)
    (h : zhaoAdd (idealTest r ev.target_cache.n_ways) target 0 b s = .ok s₁) :
    ZhaoMinimal r target ev s₁ := by
  have hlen : s.cands.length = cands₀.length := hs.perm.length_eq
  have hup := hs.upper_le
  have hlow := hs.lower_eq
  obtain ⟨ho, hl, hbl, hbu, -⟩ := hb
  -- the window up to the search's `upper` passes: `upper₀` passed, and so did every probe
  have hpass : ev.target_cache.n_ways ≤ congCount r target (bsWindow s.cands 0 b.upper) := by
    rcases hbi.upper_passes with ⟨-, hu⟩ | ⟨-, hW⟩
    · rw [hu]
      simpa [bsWindow] using hm.upper_passes
    · exact hW
  obtain ⟨st', ⟨-, ht, -⟩ | ⟨-, hadd⟩⟩ :=
    zhaoAdd_cases (idealTest r ev.target_cache.n_ways) target 0 b s (by omega) (by omega)
      (by omega)
  · have := congCount_lt_of_idealTest r _ ht
    omega
  · rw [hadd] at h
    cases h
    -- the swap stays inside `cands[0..upper)`, so that window keeps its lines
    have hperm := take_exch_perm s.cands (show s.evsz < b.upper.toNat by omega)
      (show (b.upper - 1).toNat < b.upper.toNat by omega)
    have hcount : congCount r target
        ((exch s.cands s.evsz (b.upper - 1).toNat).take b.upper.toNat) =
        congCount r target (s.cands.take b.upper.toNat) := hperm.countP_eq _
    refine ⟨hm.n_bctr_eq, ?_⟩
    dsimp only
    rw [hcount]
    simpa [bsWindow] using hpass

/-- **A full congruent set ends the loop.** Under the ideal oracle, a congruent set below
`n_ways` lines passes the pruning phase unchanged, whether or not it reached `exp_evsz`, which
is at most `n_ways` without extra congruent lines; one of `n_ways` lines evicts, is kept whole
by the pruning, and ends the loop. -/
lemma zhaoPrune_ideal (hr : Equivalence r) (hextra : ev.build_conf.extra_cong = 0)
    {s₁ : ZhaoState Unit α} (hcong : ∀ x ∈ s₁.cands.take s₁.evsz, r x target)
    (hle : s₁.evsz ≤ ev.target_cache.n_ways) (hlen : s₁.evsz ≤ s₁.cands.length)
    {p : Next (ZhaoState Unit α)}
    (h : zhaoPrune (idealTest r ev.target_cache.n_ways) target (expEvsz ev) s₁ = .ok p) :
    (s₁.evsz < ev.target_cache.n_ways ∧ p = .cont s₁) ∨
      (s₁.evsz = ev.target_cache.n_ways ∧ p = .brk s₁) := by
  have hexp : expEvsz ev ≤ ev.target_cache.n_ways := expEvsz_le_of_extra_zero hextra
  have hall : congCount r target (s₁.cands.take s₁.evsz) = s₁.evsz := by
    rw [congCount_eq_length r hcong]
    simp only [List.length_take]
    omega
  rcases zhaoPrune_cases (idealTest r ev.target_cache.n_ways) target (expEvsz ev) s₁ hlen with
    ⟨hlt, hp⟩ | ⟨hge, st', ht, hp⟩ | ⟨hge, st', c, k, st'', ht, hpr, -, -, hp⟩
  · rw [hp] at h
    cases h
    exact .inl ⟨by omega, rfl⟩
  · -- a congruent set that fails the ideal test has fewer than `n_ways` lines
    have := congCount_lt_of_idealTest r _ ht
    rw [hp] at h
    cases h
    exact .inl ⟨by omega, rfl⟩
  · -- a congruent set that evicts has `n_ways` lines, all of which the pruning keeps
    have := le_congCount_of_idealTest r _ ht
    cases st'
    rw [pruneEvcands_congruent ev.target_cache.n_ways target hr s₁.cands hlen hcong
      (by omega)] at hpr
    cases hpr
    rw [if_pos (by omega)] at hp
    rw [hp] at h
    cases h
    exact .inr ⟨by omega, rfl⟩

/-- **The tail of an iteration keeps the set.** The migration moves lines at or above
`upper` only, and the clamp does not touch the array. In a minimal run the window up to
`upper` keeps evicting, so `upper` stays above the set and the clamp neither moves it nor
ends the loop. -/
lemma zhaoTail_ideal {cands₀ : List α} {t t' : ZhaoState Unit α} (hmid : ZhaoMid ev cands₀ t)
    (hi : ZhaoIdeal r target ev t) (hm : zhaoMigrate ev cands₀.length t = .ok t') :
    (∀ u, zhaoClamp cands₀.length t' = .cont u →
      ZhaoIdeal r target ev u ∧ (ZhaoMinimal r target ev t → ZhaoMinimal r target ev u)) ∧
    (∀ u, zhaoClamp cands₀.length t' = .brk u →
      (∀ x ∈ u.cands.take u.evsz, r x target) ∧ ¬ ZhaoMinimal r target ev t) := by
  have hle := hmid.evsz_le_upper
  obtain ⟨c, u₀, mg, hm', -, htake, hge, hu, -⟩ :=
    zhaoMigrate_spec ev cands₀.length t hmid.perm.length_eq (by omega) hmid.upper_le
      hmid.migrated_lt
  rw [hm'] at hm
  cases hm
  -- the set lies below `upper`, so the migration leaves it alone
  have hi' : ZhaoIdeal r target ev
      { t with lower := (t.evsz : ℤ), cands := c, upper := u₀, migrated := mg } := by
    refine ⟨?_, hi.evsz_lt⟩
    dsimp only
    rw [take_eq_take_of_le htake (by omega)]
    exact hi.cong
  have hmin' : ZhaoMinimal r target ev t → ZhaoMinimal r target ev
      { t with lower := (t.evsz : ℤ), cands := c, upper := u₀, migrated := mg } := by
    intro hmt
    refine ⟨hmt.n_bctr_eq, ?_⟩
    dsimp only
    calc ev.target_cache.n_ways ≤ congCount r target (t.cands.take t.upper.toNat) :=
          hmt.upper_passes
      _ = congCount r target (c.take t.upper.toNat) := by rw [htake]
      _ ≤ congCount r target (c.take u₀.toNat) :=
          countP_take_mono (fun x => decide (r x target)) c (by omega)
  obtain ⟨u', it, hcl | ⟨hcl, -, -⟩⟩ := zhaoClamp_cases cands₀.length
    { t with lower := (t.evsz : ℤ), cands := c, upper := u₀, migrated := mg } hu
  · -- the clamp ended the loop: only possible when `upper` fell to the set
    refine ⟨fun u h => (by rw [hcl] at h; cases h), fun u h => ?_⟩
    rw [hcl] at h
    cases h
    refine ⟨hi'.cong, fun hmt => ?_⟩
    rw [zhaoClamp_of_lt _ _ (hi'.evsz_lt_upper (hmin' hmt))] at hcl
    cases hcl
  · refine ⟨fun u h => ?_, fun u h => (by rw [hcl] at h; cases h)⟩
    rw [hcl] at h
    cases h
    refine ⟨⟨hi'.cong, hi'.evsz_lt⟩, fun hmt => ?_⟩
    -- in a minimal run the clamp keeps `upper`
    have hc' := zhaoClamp_of_lt cands₀.length _ (hi'.evsz_lt_upper (hmin' hmt))
    rw [hcl] at hc'
    cases hc'
    exact ⟨(hmin' hmt).n_bctr_eq, (hmin' hmt).upper_passes⟩

/-- **One iteration under the ideal oracle.** It keeps `ZhaoIdeal`, and `ZhaoMinimal` when
`slack = 0`; when it ends the loop, the set is congruent, and has `n_ways` lines if the run
was minimal.

**Proof sketch.** The phases in order: the search starts from the failing window up to the
set (`ZhaoIdeal.window_fails`), `zhaoAdd_ideal` and `zhaoAdd_minimal` extend the set, the
pruning phase passes it on or ends the loop (`zhaoPrune_ideal`), and `zhaoTail_ideal` keeps
the prefix. -/
theorem zhaoBody_ideal (hr : Equivalence r) (hextra : ev.build_conf.extra_cong = 0)
    {cands₀ : List α} {s : ZhaoState Unit α} (hs : ZhaoSafe ev cands₀ s)
    (hi : ZhaoIdeal r target ev s) (hg : zhaoGuard ev s = true) {nx : Next (ZhaoState Unit α)}
    (h : zhaoBody (idealTest r ev.target_cache.n_ways) target ev cands₀.length s = .ok nx) :
    (∀ t, nx = .cont t → ZhaoIdeal r target ev t ∧
      (ev.build_conf.slack = 0 → ZhaoMinimal r target ev s → ZhaoMinimal r target ev t)) ∧
    (∀ t, nx = .brk t → (∀ x ∈ t.cands.take t.evsz, r x target) ∧
      (ev.build_conf.slack = 0 → ZhaoMinimal r target ev s → t.evsz = ev.target_cache.n_ways)) := by
  obtain ⟨b, s₁, p, hb, ha, hp, hrest⟩ := zhaoBody_eq_ok (idealTest r ev.target_cache.n_ways)
    target h
  have hlen : s.cands.length = cands₀.length := hs.perm.length_eq
  have hoff : zhaoOffset ev s.evsz ≤ s.evsz := zhaoOffset_le ev s.evsz
  have hoff₀ : ev.build_conf.slack = 0 → zhaoOffset ev s.evsz = 0 := fun h0 => by
    simp [zhaoOffset, h0]
  -- the search, from the failing window up to the set
  obtain ⟨hframe, hbi, hend⟩ := zhaoSearch_ideal r target ev.target_cache.n_ways s.cands
    (zhaoOffset ev s.evsz) s.upper (by rw [hs.lower_eq]; omega) hs.lower_lt
    (by have := hs.upper_le; omega) (zhaoFirstCnt_mem _ s (by rw [hs.lower_eq]; omega))
    (by rw [hs.lower_eq]; exact hi.window_fails _) hb
  -- the add phase
  obtain ⟨hcong₁, hle₁⟩ := zhaoAdd_ideal r target ev hs hi hframe hbi hend ha
  have hmin₁ : ev.build_conf.slack = 0 → ZhaoMinimal r target ev s → ZhaoMinimal r target ev s₁ :=
    fun h0 hm => zhaoAdd_minimal r target ev hs hm (hoff₀ h0 ▸ hframe) (hoff₀ h0 ▸ hbi)
      (hoff₀ h0 ▸ ha)
  have hmid : ZhaoMid ev cands₀ s₁ := by
    obtain ⟨s₁', ha', hmid, -⟩ := zhaoAdd_mid ev cands₀ (idealTest r ev.target_cache.n_ways)
      target hs hg hframe
    rw [ha'] at ha
    cases ha
    exact hmid
  have hlen₁ : s₁.evsz ≤ s₁.cands.length := by
    have := hmid.evsz_le_upper
    have := hmid.upper_le
    have := hmid.perm.length_eq
    omega
  -- the pruning phase
  rcases zhaoPrune_ideal r target ev hr hextra hcong₁ hle₁ hlen₁ hp with ⟨hlt, rfl⟩ | ⟨heq, rfl⟩
  · -- the loop goes on: the migration and the clamp
    rcases hrest with ⟨t, hc, -⟩ | ⟨t, t', hc, hm, rfl⟩
    · cases hc
    cases hc
    obtain ⟨hcont, hbrk⟩ := zhaoTail_ideal r target ev hmid ⟨hcong₁, hlt⟩ hm
    refine ⟨fun u hu => ?_, fun u hu => ?_⟩
    · obtain ⟨hi', hmin'⟩ := hcont u hu
      exact ⟨hi', fun h0 hm => hmin' (hmin₁ h0 hm)⟩
    · obtain ⟨hc', hnot⟩ := hbrk u hu
      exact ⟨hc', fun h0 hm => absurd (hmin₁ h0 hm) hnot⟩
  · -- a full congruent set ends the loop
    rcases hrest with ⟨t, hc, rfl⟩ | ⟨t, t', hc, -, -⟩
    · cases hc
      refine ⟨fun t' ht' => (by cases ht'), fun t' ht' => ?_⟩
      cases ht'
      exact ⟨hcong₁, fun _ _ => heq⟩
    · cases hc

end Outer

/-! ## The builder -/

/-- **The loop of `build_evset_zhao` against the ideal oracle.** Whatever the loop leaves,
its set `cands[0..evsz)` is congruent to the target; in a minimal run (`slack = 0`, one
backtrack allowed, `ev_cap ≥ n_ways` and `n_ways` congruent candidates) it has `n_ways`
lines.

**Proof sketch.** The invariant rule with `ZhaoSafe`, `ZhaoIdeal` and, under the
hypotheses of the second part, `ZhaoMinimal`. A minimal run cannot leave the loop by its
guard: `evsz < n_ways ≤ ev_cap` and no backtrack was counted. -/
theorem zhaoRun_ideal {r : α → α → Prop} [DecidableRel r] (hr : Equivalence r) (target : α)
    (ev : EvSet α) (cands : List α) (hn : 2 ≤ cands.length) (hW : 0 < ev.target_cache.n_ways)
    (hextra : ev.build_conf.extra_cong = 0) {s : ZhaoState Unit α}
    (hrun : run (zhaoGuard ev) (zhaoBody (idealTest r ev.target_cache.n_ways) target ev
      cands.length) .outOfFuel (zhaoFuel ev)
      ⟨cands, 0, 0, cands.length, 0, 0, false, cands.length - 1, ()⟩ = .ok s) :
    (∀ x ∈ s.cands.take s.evsz, r x target) ∧
      (ev.build_conf.slack = 0 ∧ 0 < ev.build_conf.max_backtrack ∧
        ev.target_cache.n_ways ≤ ev.ev_cap ∧ ev.target_cache.n_ways ≤ congCount r target cands →
        s.evsz = ev.target_cache.n_ways) := by
  -- the hypotheses of the second part
  let Hb : Prop := ev.build_conf.slack = 0 ∧ 0 < ev.build_conf.max_backtrack ∧
    ev.target_cache.n_ways ≤ ev.ev_cap ∧ ev.target_cache.n_ways ≤ congCount r target cands
  refine run_inv (zhaoGuard ev) (zhaoBody (idealTest r ev.target_cache.n_ways) target ev
      cands.length) Fault.outOfFuel
    (fun t => ZhaoSafe ev cands t ∧ ZhaoIdeal r target ev t ∧ (Hb → ZhaoMinimal r target ev t))
    (fun t => (∀ x ∈ t.cands.take t.evsz, r x target) ∧
      (Hb → t.evsz = ev.target_cache.n_ways))
    (fun t ⟨hs, hi, hm⟩ hg => ?_) (fun t ⟨_, hi, hm⟩ hg => ?_) (zhaoFuel ev) _ s
    ⟨zhaoSafe_init ev cands () hn, ⟨by simp, hW⟩, fun hb => ⟨rfl, by simpa using hb.2.2.2⟩⟩ hrun
  · -- one iteration: `zhaoBody_safe_of_eq` for the safety part, `zhaoBody_ideal` for the rest
    refine ⟨fun t' h => ?_, fun t' h => ?_⟩
    · obtain ⟨hi', hm'⟩ := (zhaoBody_ideal r target ev hr hextra hs hi hg h).1 t' rfl
      exact ⟨(zhaoBody_safe_of_eq ev cands _ target hs hg h).1 t' rfl, hi',
        fun hb => hm' hb.1 (hm hb)⟩
    · obtain ⟨hc, hsz⟩ := (zhaoBody_ideal r target ev hr hextra hs hi hg h).2 t' rfl
      exact ⟨hc, fun hb => hsz hb.1 (hm hb)⟩
  · refine ⟨hi.cong, fun hb => ?_⟩
    -- a minimal run never fails the guard
    have hev := hi.evsz_lt
    have hbctr := (hm hb).n_bctr_eq
    obtain ⟨-, hmax, hcapW, -⟩ := hb
    simp only [zhaoGuard, decide_eq_false_iff_not, not_and, not_lt] at hg
    have := hg (by omega)
    omega

/-- **The set copied by a successful run is congruent**, under the ideal oracle. -/
theorem buildEvsetZhao_lines_ideal {r : α → α → Prop} [DecidableRel r] (hr : Equivalence r)
    (target : α) (ev : EvSet α) (cands : List α) (hW : 0 < ev.target_cache.n_ways)
    (hextra : ev.build_conf.extra_cong = 0) {out : ZhaoOut Unit α}
    (h : buildEvsetZhao (idealTest r ev.target_cache.n_ways) () target ev cands = .ok out)
    (herr : out.has_err = false) : ∀ x ∈ out.evset.lines, r x target := by
  rcases buildEvsetZhao_eq_ok h with ⟨-, rfl⟩ | ⟨hn, s, hrun, -, hle, rfl⟩
  · cases herr
  · rw [lines_of_copy ev s.cands hle]
    exact (zhaoRun_ideal hr target ev cands hn hW hextra hrun).1

/-- **`build_evset_zhao` against the ideal oracle.** With `n_ways ≥ 1` and
`extra_cong = 0`, the builder returns, and every line it copies into `evset->addrs` is
congruent to the target. If moreover `slack = 0`, one backtrack is allowed,
`ev_cap ≥ n_ways` and the candidates hold `n_ways` congruent lines, it reports no error and
the set has exactly `n_ways` lines.

**Proof sketch.** `zhaoLoop_spec` gives the loop's result and `zhaoRun_ideal` says what it
is; the copy puts that set into `evset->addrs`. -/
theorem buildEvsetZhao_ideal {r : α → α → Prop} [DecidableRel r] (hr : Equivalence r)
    (target : α) (ev : EvSet α) (cands : List α) (hn : 2 ≤ cands.length)
    (hcap : ev.addrs.length = ev.ev_cap) (hW : 0 < ev.target_cache.n_ways)
    (hextra : ev.build_conf.extra_cong = 0) :
    ∃ out, buildEvsetZhao (idealTest r ev.target_cache.n_ways) () target ev cands = .ok out ∧
      (∀ x ∈ out.evset.lines, r x target) ∧
      (ev.build_conf.slack = 0 → 0 < ev.build_conf.max_backtrack →
        ev.target_cache.n_ways ≤ ev.ev_cap → ev.target_cache.n_ways ≤ congCount r target cands →
        out.has_err = false ∧ out.evset.size = ev.target_cache.n_ways) := by
  obtain ⟨s, hrun, hperm, hcap', hle⟩ :=
    zhaoLoop_spec ev cands (idealTest r ev.target_cache.n_ways) target () hn
  obtain ⟨hcong, hsize⟩ := zhaoRun_ideal hr target ev cands hn hW hextra hrun
  have hlen : s.cands.length = cands.length := hperm.length_eq
  refine ⟨_, buildEvsetZhao_of_run hn hrun (by omega) (by omega), ?_, fun h0 hmax hcapW hcount =>
    ⟨rfl, hsize ⟨h0, hmax, hcapW, hcount⟩⟩⟩
  rw [lines_of_copy ev s.cands (by omega)]
  exact hcong

/-- Four lines, grouped by parity, two of them congruent to the target `0`, in a two-way
cache with the default L2 configuration. -/
theorem buildEvsetZhao_ideal_parity :
    ∃ out, buildEvsetZhao (idealTest (fun x y : ℕ => x % 2 = y % 2) 2) () 0
        ⟨[0, 0], 0, 2, 0, initDefL2Conf 0 0, ⟨64, 6, 10, 2, 1, 0⟩⟩ [1, 2, 3, 4] = .ok out ∧
      (∀ x ∈ out.evset.lines, x % 2 = 0 % 2) ∧
      ((initDefL2Conf 0 0).slack = 0 → 0 < (initDefL2Conf 0 0).max_backtrack → 2 ≤ 2 →
        2 ≤ congCount (fun x y : ℕ => x % 2 = y % 2) 0 [1, 2, 3, 4] →
        out.has_err = false ∧ out.evset.size = 2) :=
  @buildEvsetZhao_ideal ℕ (fun x y : ℕ => x % 2 = y % 2) _ ⟨fun _ => rfl, Eq.symm, Eq.trans⟩ 0
    ⟨[0, 0], 0, 2, 0, initDefL2Conf 0 0, ⟨64, 6, 10, 2, 1, 0⟩⟩ [1, 2, 3, 4] (by decide) rfl
    (by decide) rfl

end EvCache
