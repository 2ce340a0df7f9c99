import EvCache.Evset.Zhao

set_option autoImplicit false

/-!
# `build_evset_zhao` is memory-safe and terminates, whatever the tests answer

For every test (every sequence of answers of `build_conf->test`) and every candidate array
of at least two lines, the model of `build_evset_zhao` returns `.ok`: no access left the
candidate array, every test was handed a window `cands[offset..cnt)` with
`0 ≤ offset ≤ cnt ≤ n_cands`, every loop ended within its fuel, and at most `ev_cap` lines
were copied into `evset->addrs`. The candidate array comes back permuted, and the copied set
is its prefix.

The argument is one invariant of the outer loop (`EvCache.ZhaoSafe`): `lower = evsz`,
`lower < upper ≤ n_cands`, `migrated < n_cands`, `evsz ≤ ev_cap`, and the array is a
permutation of the input. Each phase of an iteration is proved once against it. The
measure `(max_bctr - n_bctr) · (ev_cap + 1) + (ev_cap - evsz)` drops at every iteration,
since each one counts a backtrack or adds a line.

## Main results

* `EvCache.zhaoSearch_spec` — the halving loop ends with `upper = lower + 1`.
* `EvCache.zhaoBody_safe` — one iteration keeps `EvCache.ZhaoSafe` and lowers the measure.
* `EvCache.buildEvsetZhao_ok` — the builder returns, for every test.
-/

namespace EvCache

open CArray FuelLoop

variable {σ α : Type}

/-! ## The halving loop -/

section Search

variable (test : σ → α → List α → EvRes × σ) (target : α) (cands : List α) (offset : ℕ)

/-- The window a probe at `cnt` tests: `cands[offset..cnt)`. -/
def bsWindow (cnt : ℤ) : List α := (cands.take cnt.toNat).drop offset

/-- A probe in range tests the window `cands[offset..cnt)`. -/
lemma bsBody_of_window {b : BsState σ} (h₁ : (offset : ℤ) ≤ b.cnt) (h₂ : b.cnt ≤ cands.length) :
    bsBody test target cands offset b =
      match test b.st target (bsWindow cands offset b.cnt) with
      | (res, st) =>
        if res = .ok then pure (.cont ⟨b.lower, b.cnt, (b.cnt + b.lower).tdiv 2, true, st⟩)
        else pure (.cont ⟨b.cnt, b.upper, (b.upper + b.cnt).tdiv 2, b.has_pos, st⟩) := by
  have e : ((offset : ℤ)).toNat = offset := by simp
  simp only [bsBody, slice_of_int (Int.natCast_nonneg offset) h₁ h₂, ok_bind, e]
  rfl

lemma bsBody_pass {b : BsState σ} (h₁ : (offset : ℤ) ≤ b.cnt) (h₂ : b.cnt ≤ cands.length)
    {st' : σ} (h : test b.st target (bsWindow cands offset b.cnt) = (.ok, st')) :
    bsBody test target cands offset b =
      .ok (.cont ⟨b.lower, b.cnt, (b.cnt + b.lower).tdiv 2, true, st'⟩) := by
  rw [bsBody_of_window test target cands offset h₁ h₂, h]
  rfl

lemma bsBody_fail {b : BsState σ} (h₁ : (offset : ℤ) ≤ b.cnt) (h₂ : b.cnt ≤ cands.length)
    {st' : σ} (h : test b.st target (bsWindow cands offset b.cnt) = (.fail, st')) :
    bsBody test target cands offset b =
      .ok (.cont ⟨b.cnt, b.upper, (b.upper + b.cnt).tdiv 2, b.has_pos, st'⟩) := by
  rw [bsBody_of_window test target cands offset h₁ h₂, h]
  rfl

/-- The bounds the halving loop keeps, from a start `(lower₀, upper₀)` with
`offset ≤ lower₀`: `lower₀ ≤ lower < upper ≤ upper₀`, and the next probe lies strictly
between `lower` and `upper` while the loop runs. -/
structure BsFrame (lower₀ upper₀ : ℤ) (b : BsState σ) : Prop where
  offset_le : (offset : ℤ) ≤ lower₀
  lower_ge : lower₀ ≤ b.lower
  lower_lt : b.lower < b.upper
  upper_le : b.upper ≤ upper₀
  cnt_mem : 1 < b.upper - b.lower → b.lower < b.cnt ∧ b.cnt < b.upper

/-- The midpoint of two non-negative bounds lies strictly between them when they are more
than one apart. -/
lemma tdiv_two_mem {a b : ℤ} (ha : 0 ≤ a) (h : 1 < b - a) :
    a < (b + a).tdiv 2 ∧ (b + a).tdiv 2 < b := by
  rw [Int.tdiv_eq_ediv_of_nonneg (by omega)]
  omega

/-- One probe keeps the bounds and brings `lower` and `upper` closer. -/
lemma bsBody_frame {lower₀ upper₀ : ℤ} (hup : upper₀ ≤ cands.length) {b : BsState σ}
    (hb : BsFrame offset lower₀ upper₀ b) (hg : bsGuard b = true) :
    ∃ b', bsBody test target cands offset b = .ok (.cont b') ∧
      BsFrame offset lower₀ upper₀ b' ∧ (b'.upper - b'.lower).toNat < (b.upper - b.lower).toNat := by
  obtain ⟨ho, hl, hlu, hu, hcnt⟩ := hb
  have hgap : 1 < b.upper - b.lower := of_decide_eq_true hg
  obtain ⟨hc₁, hc₂⟩ := hcnt hgap
  have hw₁ : (offset : ℤ) ≤ b.cnt := by omega
  have hw₂ : b.cnt ≤ cands.length := by omega
  rcases h : test b.st target (bsWindow cands offset b.cnt) with ⟨res, st'⟩
  cases res with
  | ok =>
    -- a pass moves `upper` down to the probe
    refine ⟨_, bsBody_pass test target cands offset hw₁ hw₂ h, ⟨ho, hl, hc₁, ?_, ?_⟩, ?_⟩
    · dsimp only
      omega
    · exact fun hgap' => tdiv_two_mem (by dsimp only; omega) hgap'
    · dsimp only
      omega
  | fail =>
    -- a failure moves `lower` up to the probe
    refine ⟨_, bsBody_fail test target cands offset hw₁ hw₂ h, ⟨ho, ?_, hc₂, hu, ?_⟩, ?_⟩
    · dsimp only
      omega
    · exact fun hgap' => tdiv_two_mem (by dsimp only; omega) hgap'
    · dsimp only
      omega

/-- **The halving loop ends** with `upper = lower + 1`, inside the bounds it started from.

**Proof sketch.** The variant rule with `BsFrame` and the measure `upper - lower`. -/
theorem zhaoSearch_spec {lower upper cnt : ℤ} (st : σ) (ho : (offset : ℤ) ≤ lower)
    (hlu : lower < upper) (hup : upper ≤ cands.length)
    (hcnt : 1 < upper - lower → lower < cnt ∧ cnt < upper) :
    ∃ b, zhaoSearch test target cands offset lower upper cnt st = .ok b ∧
      BsFrame offset lower upper b ∧ b.upper = b.lower + 1 := by
  obtain ⟨b, hb, hframe, hend⟩ := run_spec (@bsGuard σ) (bsBody test target cands offset)
    Fault.outOfFuel (BsFrame offset lower upper)
    (fun b => BsFrame offset lower upper b ∧ bsGuard b = false)
    (fun b => (b.upper - b.lower).toNat)
    (fun b hb hg => Or.inl (bsBody_frame test target cands offset hup hb hg))
    (fun b hb hg => ⟨hb, hg⟩) ((upper - lower).toNat + 1) ⟨lower, upper, cnt, false, st⟩
    ⟨ho, le_refl _, hlu, le_refl _, hcnt⟩ (by simp)
  refine ⟨b, hb, hframe, ?_⟩
  have := hframe.lower_lt
  simp only [bsGuard, decide_eq_false_iff_not, not_lt] at hend
  omega

end Search

/-! ## The first probe -/

/-- **The first probe lies inside the search interval.** The skewed split
`(upper·rem + lower) / (rem + 1)` lies in `(lower, upper]`, and the source steps it back
from `upper`; the midpoint lies strictly inside as soon as the bounds are two apart. -/
lemma zhaoFirstCnt_mem (n_ways : ℕ) (s : ZhaoState σ α) (h₀ : 0 ≤ s.lower)
    (h : 1 < s.upper - s.lower) :
    s.lower < zhaoFirstCnt n_ways s ∧ zhaoFirstCnt n_ways s < s.upper := by
  unfold zhaoFirstCnt
  split_ifs with hsk
  · -- the skewed split `(upper·rem + lower) / (rem + 1)`, for `rem = n_ways - evsz ≥ 1`
    obtain ⟨-, -, hlt⟩ := hsk
    dsimp only
    have hrem : (1 : ℤ) ≤ (n_ways : ℤ) - s.evsz := by omega
    have hnum : 0 ≤ s.upper * ((n_ways : ℤ) - s.evsz) + s.lower :=
      add_nonneg (mul_nonneg (by omega) (by omega)) h₀
    rw [Int.tdiv_eq_ediv_of_nonneg hnum]
    have hgt : s.lower < (s.upper * ((n_ways : ℤ) - s.evsz) + s.lower) /
        ((n_ways : ℤ) - s.evsz + 1) := by
      rw [Int.lt_iff_add_one_le, Int.le_ediv_iff_mul_le (by omega)]
      nlinarith
    have hle : (s.upper * ((n_ways : ℤ) - s.evsz) + s.lower) / ((n_ways : ℤ) - s.evsz + 1) <
        s.upper + 1 := by
      rw [Int.ediv_lt_iff_lt_mul (by omega)]
      nlinarith
    split_ifs <;> omega
  · exact tdiv_two_mem h₀ h

/-! ## The phases after the search -/

section Phases

variable (test : σ → α → List α → EvRes × σ) (target : α)

/-- **What `zhaoAdd` can do.** Either no probe passed and the whole window fails, and the
iteration backtracks; or the line at `upper - 1` is swapped into `cands[evsz]`. -/
lemma zhaoAdd_cases (offset : ℕ) (b : BsState σ) (s : ZhaoState σ α)
    (hoff : (offset : ℤ) ≤ b.upper) (hup : b.upper ≤ s.cands.length)
    (hev : (s.evsz : ℤ) < b.upper) :
    ∃ st',
      (b.has_pos = false ∧ test b.st target (bsWindow s.cands offset b.upper) = (.fail, st') ∧
        zhaoAdd test target offset b s =
          .ok { s with lower := b.lower, upper := b.upper, n_bctr := s.n_bctr + 1,
                       is_reset := true, st := st' }) ∨
      ((b.has_pos = true ∧ st' = b.st ∨
          b.has_pos = false ∧ test b.st target (bsWindow s.cands offset b.upper) = (.ok, st')) ∧
        zhaoAdd test target offset b s =
          .ok { s with cands := exch s.cands s.evsz (b.upper - 1).toNat, evsz := s.evsz + 1,
                       lower := b.lower, upper := b.upper, is_reset := false, st := st' }) := by
  have hsw : swap s.cands s.evsz (b.upper - 1) = .ok (exch s.cands s.evsz (b.upper - 1).toNat) := by
    have := @swap_of_int _ s.cands s.evsz (b.upper - 1) (Int.natCast_nonneg s.evsz)
      (by omega) (by omega) (by omega)
    simpa using this
  have hsl : slice s.cands offset b.upper = .ok (bsWindow s.cands offset b.upper) := by
    simpa [bsWindow] using @slice_of_int _ s.cands offset b.upper
      (Int.natCast_nonneg offset) hoff hup
  cases hpos : b.has_pos with
  | true =>
    -- a probe passed: no further test, the line is added
    refine ⟨b.st, .inr ⟨.inl ⟨rfl, rfl⟩, ?_⟩⟩
    simp [zhaoAdd, hpos, hsw]
  | false =>
    rcases h : test b.st target (bsWindow s.cands offset b.upper) with ⟨res, st'⟩
    cases res with
    | fail =>
      refine ⟨st', .inl ⟨rfl, rfl, ?_⟩⟩
      simp [zhaoAdd, hpos, hsl, h]
    | ok =>
      refine ⟨st', .inr ⟨.inr ⟨rfl, rfl⟩, ?_⟩⟩
      simp [zhaoAdd, hpos, hsl, h, hsw]

/-- **What `zhaoPrune` can do.** A set below `exp_evsz` lines is left alone; a set that does
not evict the target only advances the test; a set that does is pruned, and the loop ends
if at least `exp_evsz` lines remain, or counts a backtrack if not. -/
lemma zhaoPrune_cases (exp_evsz : ℕ) (s : ZhaoState σ α) (hs : s.evsz ≤ s.cands.length) :
    (s.evsz < exp_evsz ∧ zhaoPrune test target exp_evsz s = .ok (.cont s)) ∨
    (exp_evsz ≤ s.evsz ∧ ∃ st', test s.st target (s.cands.take s.evsz) = (.fail, st') ∧
      zhaoPrune test target exp_evsz s = .ok (.cont { s with st := st' })) ∨
    (exp_evsz ≤ s.evsz ∧ ∃ st' cands k st'',
      test s.st target (s.cands.take s.evsz) = (.ok, st') ∧
      pruneEvcands test st' target s.cands s.evsz = .ok (cands, k, st'') ∧
      k ≤ s.evsz ∧ PermOn s.evsz cands s.cands ∧
      zhaoPrune test target exp_evsz s =
        .ok (if exp_evsz ≤ k then .brk { s with cands := cands, evsz := k, st := st'' }
          else .cont { s with cands := cands, evsz := k, n_bctr := s.n_bctr + 1, st := st'' })) := by
  by_cases hlt : s.evsz < exp_evsz
  · exact .inl ⟨hlt, by simp [zhaoPrune, hlt]⟩
  have hsl : slice s.cands 0 s.evsz = .ok (s.cands.take s.evsz) := slice_zero_of_le hs
  rcases h : test s.st target (s.cands.take s.evsz) with ⟨res, st'⟩
  cases res with
  | fail =>
    exact .inr (.inl ⟨by omega, st', rfl, by simp [zhaoPrune, hlt, hsl, h]⟩)
  | ok =>
    obtain ⟨cands, k, st'', hp, hk, hperm⟩ := pruneEvcands_spec test target st' s.cands hs
    refine .inr (.inr ⟨by omega, st', cands, k, st'', rfl, hp, hk, hperm, ?_⟩)
    simp only [zhaoPrune, hlt, if_false, hsl, ok_bind, h, if_true, hp]
    split_ifs <;> rfl

/-- The migration loop's invariant, from the array `cands₀` and the bound `upper₀` it
starts from: the array stays a permutation, its prefix below `upper₀` is untouched, and
`upper₀ ≤ upper ≤ migrated + 1` with `migrated` inside the array. -/
structure MigFrame (cands₀ : List α) (upper₀ : ℤ) (m : MigState α) : Prop where
  perm : m.cands.Perm cands₀
  take_eq : m.cands.take upper₀.toNat = cands₀.take upper₀.toNat
  upper₀_nonneg : 0 ≤ upper₀
  upper_ge : upper₀ ≤ m.upper
  upper_le : m.upper ≤ m.migrated + 1
  migrated_lt : m.migrated < cands₀.length

/-- One move keeps the frame: both swapped slots lie at or above `upper₀`. -/
lemma migBody_frame {cands₀ : List α} {upper₀ : ℤ} {step : ℕ} {m : MigState α}
    (hm : MigFrame cands₀ upper₀ m) (hg : migGuard step m = true) :
    ∃ m', migBody m = .ok (.cont m') ∧ MigFrame cands₀ upper₀ m' ∧ m'.migrated < m.migrated := by
  obtain ⟨hperm, htake, h₀, hge, hle, hlt⟩ := hm
  have hg' : m.i < step ∧ m.upper < m.migrated := of_decide_eq_true hg
  have hlen : m.cands.length = cands₀.length := hperm.length_eq
  have hsw : swap m.cands m.upper m.migrated = .ok (exch m.cands m.upper.toNat m.migrated) := by
    simpa using @swap_of_int _ m.cands m.upper m.migrated (by omega) (by omega)
      (by omega) (by omega)
  refine ⟨⟨exch m.cands m.upper.toNat m.migrated, m.upper + 1, m.migrated - 1, m.i + 1⟩,
    by simp [migBody, hsw], ⟨(exch_perm _ _ _).trans hperm, ?_, h₀, ?_, ?_, ?_⟩, ?_⟩
  · rw [take_exch_of_le _ (by omega) (by omega), htake]
  all_goals dsimp only; omega

/-- **The migration keeps the prefix below `upper`.** `zhaoMigrate` sets `lower = evsz`,
may move `upper` up (never past the array) and `migrated`, and only permutes the array at
or above `upper`. -/
lemma zhaoMigrate_spec (ev : EvSet α) (n_cands : ℕ) (s : ZhaoState σ α)
    (hn : s.cands.length = n_cands) (h₀ : 0 ≤ s.upper) (hu : s.upper ≤ n_cands)
    (hm : s.migrated < n_cands) :
    ∃ cands upper migrated, zhaoMigrate ev n_cands s =
        .ok { s with lower := (s.evsz : ℤ), cands := cands, upper := upper,
                     migrated := migrated } ∧
      cands.Perm s.cands ∧ cands.take s.upper.toNat = s.cands.take s.upper.toNat ∧
      s.upper ≤ upper ∧ upper ≤ n_cands ∧ migrated < n_cands := by
  by_cases hc : s.is_reset ∨ (ev.build_conf.slack ≠ 0 ∧ numCarriedCong ev < s.evsz)
  · -- the migration loop runs, from `migrated` reset to the last slot once `upper` passed it
    have hmig :
        s.upper ≤ ((if (s.migrated : ℤ) ≤ s.upper then n_cands - 1 else s.migrated : ℕ) : ℤ) + 1 ∧
          (if (s.migrated : ℤ) ≤ s.upper then n_cands - 1 else s.migrated) < n_cands := by
      split_ifs <;> omega
    have hstart : MigFrame s.cands s.upper
        ⟨s.cands, s.upper, if (s.migrated : ℤ) ≤ s.upper then n_cands - 1 else s.migrated, 0⟩ :=
      ⟨List.Perm.refl _, rfl, h₀, le_refl _, hmig.1, hn ▸ hmig.2⟩
    obtain ⟨m, hrun, hframe, -⟩ := run_spec (migGuard (zhaoStep ev)) migBody Fault.outOfFuel
      (MigFrame s.cands s.upper) (fun m => MigFrame s.cands s.upper m ∧ True)
      (fun m => m.migrated) (fun m hm hg => .inl (migBody_frame hm hg))
      (fun m hm _ => ⟨hm, trivial⟩) (n_cands + 1) _ hstart (by dsimp only; omega)
    refine ⟨m.cands, m.upper, m.migrated, ?_, hframe.perm, hframe.take_eq, hframe.upper_ge,
      ?_, by have := hframe.migrated_lt; omega⟩
    · simp [zhaoMigrate, hc, hrun]
    · have := hframe.upper_le
      have := hframe.migrated_lt
      omega
  · refine ⟨s.cands, s.upper, s.migrated, ?_, List.Perm.refl _, rfl, le_refl _, hu, hm⟩
    simp only [zhaoMigrate, hc, if_false]
    rfl

/-- **What `zhaoClamp` can do.** It either ends the loop, or continues with
`lower < upper ≤ n_cands`. -/
lemma zhaoClamp_cases (n_cands : ℕ) (s : ZhaoState σ α) (hu : s.upper ≤ n_cands) :
    ∃ upper iters, zhaoClamp n_cands s = .brk { s with upper := upper, iters := iters } ∨
      (zhaoClamp n_cands s = .cont { s with upper := upper, iters := iters } ∧
        s.lower < upper ∧ upper ≤ n_cands) := by
  unfold zhaoClamp
  split_ifs with h₁ h₂
  · exact ⟨s.lower + 1, s.iters, .inl rfl⟩
  · exact ⟨s.lower + 1, s.iters + 1, .inr ⟨rfl, by omega, by omega⟩⟩
  · exact ⟨s.upper, s.iters + 1, .inr ⟨rfl, by omega, hu⟩⟩

lemma zhaoClamp_of_lt (n_cands : ℕ) (s : ZhaoState σ α) (h : s.lower < s.upper) :
    zhaoClamp n_cands s = .cont { s with iters := s.iters + 1 } := by
  simp [zhaoClamp, show ¬ s.upper ≤ s.lower by omega]

/-- **What one iteration is made of.** An iteration that returns ran the search, the add
and the pruning phase; it then ended, or ran the migration and the clamp. -/
lemma zhaoBody_eq_ok {ev : EvSet α} {n_cands : ℕ} {s : ZhaoState σ α} {nx : Next (ZhaoState σ α)}
    (h : zhaoBody test target ev n_cands s = .ok nx) :
    ∃ b s₁ p, zhaoSearch test target s.cands (zhaoOffset ev s.evsz) s.lower s.upper
        (zhaoFirstCnt ev.target_cache.n_ways s) s.st = .ok b ∧
      zhaoAdd test target (zhaoOffset ev s.evsz) b s = .ok s₁ ∧
      zhaoPrune test target (expEvsz ev) s₁ = .ok p ∧
      ((∃ t, p = .brk t ∧ nx = .brk t) ∨
        (∃ t t', p = .cont t ∧ zhaoMigrate ev n_cands t = .ok t' ∧ nx = zhaoClamp n_cands t')) := by
  obtain ⟨b, hb, h⟩ := bind_eq_ok h
  obtain ⟨s₁, ha, h⟩ := bind_eq_ok h
  obtain ⟨p, hp, h⟩ := bind_eq_ok h
  refine ⟨b, s₁, p, hb, ha, hp, ?_⟩
  cases p with
  | brk t =>
    cases h
    exact .inl ⟨t, rfl, rfl⟩
  | cont t =>
    obtain ⟨t', hm, h⟩ := bind_eq_ok h
    cases h
    exact .inr ⟨t, t', rfl, hm, rfl⟩

end Phases

/-! ## The outer loop -/

section Outer

variable (ev : EvSet α) (cands₀ : List α)

/-- The invariant of the loop of `build_evset_zhao`, at the head of every iteration:
the array is a permutation of the input, `lower = evsz`, `lower < upper ≤ n_cands`, the set
fits in `ev_cap` slots and `migrated` is a slot of the array. -/
structure ZhaoSafe (s : ZhaoState σ α) : Prop where
  perm : s.cands.Perm cands₀
  lower_eq : s.lower = s.evsz
  lower_lt : s.lower < s.upper
  upper_le : s.upper ≤ cands₀.length
  evsz_le : s.evsz ≤ ev.ev_cap
  migrated_lt : s.migrated < cands₀.length

/-- The variables between the search and the migration: the set may have grown by a line
or shrunk by pruning, and sits below `upper`. -/
structure ZhaoMid (s : ZhaoState σ α) : Prop where
  perm : s.cands.Perm cands₀
  evsz_le_upper : (s.evsz : ℤ) ≤ s.upper
  upper_le : s.upper ≤ cands₀.length
  evsz_le : s.evsz ≤ ev.ev_cap
  migrated_lt : s.migrated < cands₀.length

/-- What the loop leaves for the final copy. -/
structure ZhaoDone (s : ZhaoState σ α) : Prop where
  perm : s.cands.Perm cands₀
  evsz_le_cap : s.evsz ≤ ev.ev_cap
  evsz_le : s.evsz ≤ cands₀.length

/-- The progress of an iteration: a line added without a backtrack, or a backtrack
counted. -/
def ZhaoAdvance (s t : ZhaoState σ α) : Prop :=
  (t.n_bctr = s.n_bctr ∧ t.evsz = s.evsz + 1) ∨ s.n_bctr + 1 ≤ t.n_bctr

lemma ZhaoAdvance.n_bctr_le {s t : ZhaoState σ α} (h : ZhaoAdvance s t) : s.n_bctr ≤ t.n_bctr := by
  rcases h with ⟨h, -⟩ | h <;> omega

/-- The measure of the loop, lexicographic in the backtracks left and the free slots. -/
def zhaoMeasure (s : ZhaoState σ α) : ℕ :=
  (ev.build_conf.max_backtrack - s.n_bctr).toNat * (ev.ev_cap + 1) + (ev.ev_cap - s.evsz)

/-- **Every iteration lowers the measure.**

**Proof sketch.** An added line leaves the backtracks and takes a free slot; a counted
backtrack takes a whole block of `ev_cap + 1`, more than the free slots can give back. -/
lemma zhaoMeasure_lt {s t : ZhaoState σ α} (hg : zhaoGuard ev s = true)
    (ht : t.evsz ≤ ev.ev_cap) (h : ZhaoAdvance s t) : zhaoMeasure ev t < zhaoMeasure ev s := by
  have hg' : s.evsz < ev.ev_cap ∧ s.n_bctr < ev.build_conf.max_backtrack := of_decide_eq_true hg
  unfold zhaoMeasure
  rcases h with ⟨hb, he⟩ | hb
  · rw [hb, he]
    omega
  · have hD : (ev.build_conf.max_backtrack - t.n_bctr).toNat + 1 ≤
        (ev.build_conf.max_backtrack - s.n_bctr).toNat := by omega
    calc (ev.build_conf.max_backtrack - t.n_bctr).toNat * (ev.ev_cap + 1) + (ev.ev_cap - t.evsz)
        < ((ev.build_conf.max_backtrack - t.n_bctr).toNat + 1) * (ev.ev_cap + 1) := by
          rw [Nat.succ_mul]
          omega
      _ ≤ (ev.build_conf.max_backtrack - s.n_bctr).toNat * (ev.ev_cap + 1) :=
          Nat.mul_le_mul_right _ hD
      _ ≤ _ := Nat.le_add_right _ _

lemma zhaoOffset_le (evsz : ℕ) : zhaoOffset ev evsz ≤ evsz := by
  unfold zhaoOffset
  split_ifs <;> omega

variable (test : σ → α → List α → EvRes × σ) (target : α)

/-- After the search, `zhaoAdd` leaves the set below `upper`, and adds a line or counts a
backtrack. -/
lemma zhaoAdd_mid {s : ZhaoState σ α} (hs : ZhaoSafe ev cands₀ s) (hg : zhaoGuard ev s = true)
    {offset : ℕ} {b : BsState σ} (hb : BsFrame offset s.lower s.upper b) :
    ∃ s₁, zhaoAdd test target offset b s = .ok s₁ ∧ ZhaoMid ev cands₀ s₁ ∧ ZhaoAdvance s s₁ := by
  obtain ⟨hperm, hlow, hlu, hup, hcap, hmig⟩ := hs
  have hg' : s.evsz < ev.ev_cap ∧ s.n_bctr < ev.build_conf.max_backtrack := of_decide_eq_true hg
  have hlen : s.cands.length = cands₀.length := hperm.length_eq
  obtain ⟨ho, hl, hbl, hbu, -⟩ := hb
  obtain ⟨st', ⟨-, -, hadd⟩ | ⟨-, hadd⟩⟩ := zhaoAdd_cases test target offset b s (by omega)
    (by omega) (by omega)
  · -- a backtrack: the set stays, `upper` comes down to the search's bound
    refine ⟨_, hadd, ⟨hperm, ?_, by dsimp only; omega, by dsimp only; omega, hmig⟩, .inr le_rfl⟩
    dsimp only
    omega
  · -- a line added at `cands[evsz]` from `cands[upper - 1]`, which lies at or above it
    refine ⟨_, hadd, ⟨(exch_perm _ _ _).trans hperm, ?_, by dsimp only; omega,
      by dsimp only; omega, hmig⟩, .inl ⟨rfl, rfl⟩⟩
    dsimp only
    omega

/-- The pruning phase keeps the set below `upper`, and either ends the loop or keeps the
progress of the iteration. -/
lemma zhaoPrune_mid {s s₁ : ZhaoState σ α} (hs : ZhaoMid ev cands₀ s₁) (hadv : ZhaoAdvance s s₁) :
    (∃ t, zhaoPrune test target (expEvsz ev) s₁ = .ok (.brk t) ∧ ZhaoDone ev cands₀ t) ∨
    (∃ t, zhaoPrune test target (expEvsz ev) s₁ = .ok (.cont t) ∧ ZhaoMid ev cands₀ t ∧
      ZhaoAdvance s t) := by
  obtain ⟨hperm, hle, hup, hcap, hmig⟩ := hs
  have hlen : s₁.cands.length = cands₀.length := hperm.length_eq
  rcases zhaoPrune_cases test target (expEvsz ev) s₁ (by omega) with
    ⟨-, hp⟩ | ⟨-, st', -, hp⟩ | ⟨-, st', cands, k, st'', -, -, hk, hpo, hp⟩
  · exact .inr ⟨_, hp, ⟨hperm, hle, hup, hcap, hmig⟩, hadv⟩
  · exact .inr ⟨_, hp, ⟨hperm, hle, hup, hcap, hmig⟩, hadv⟩
  · -- pruned: the set is a permutation of a part of the old one
    have hperm' : cands.Perm cands₀ := hpo.perm.trans hperm
    split_ifs at hp with hek
    · exact .inl ⟨_, hp, ⟨hperm', by dsimp only; omega, by dsimp only; omega⟩⟩
    · refine .inr ⟨_, hp, ⟨hperm', ?_, hup, by dsimp only; omega, hmig⟩, .inr ?_⟩
      · dsimp only
        omega
      · have := hadv.n_bctr_le
        dsimp only
        omega

/-- The migration and the clamp restore the loop invariant, or end the loop. -/
lemma zhaoTail_safe {s t : ZhaoState σ α} (hs : ZhaoMid ev cands₀ t) (hadv : ZhaoAdvance s t) :
    ∃ t', zhaoMigrate ev cands₀.length t = .ok t' ∧
      ((∃ u, zhaoClamp cands₀.length t' = .brk u ∧ ZhaoDone ev cands₀ u) ∨
       (∃ u, zhaoClamp cands₀.length t' = .cont u ∧ ZhaoSafe ev cands₀ u ∧ ZhaoAdvance s u)) := by
  obtain ⟨hperm, hle, hup, hcap, hmig⟩ := hs
  obtain ⟨cands, upper, migrated, hm, hcp, -, hge, hu, hmg⟩ :=
    zhaoMigrate_spec ev cands₀.length t hperm.length_eq (by omega) hup hmig
  refine ⟨_, hm, ?_⟩
  obtain ⟨upper', iters, hc | ⟨hc, hlt, hu'⟩⟩ := zhaoClamp_cases cands₀.length
    { t with lower := (t.evsz : ℤ), cands := cands, upper := upper, migrated := migrated } hu
  · exact .inl ⟨_, hc, ⟨hcp.trans hperm, hcap, by dsimp only; omega⟩⟩
  · exact .inr ⟨_, hc, ⟨hcp.trans hperm, rfl, hlt, hu', hcap, hmg⟩, hadv⟩

/-- **One iteration of `build_evset_zhao` is safe.** From a state satisfying the loop
invariant, an iteration returns (no access leaves the array and its inner loops end), and
either ends the loop or restores the invariant with a smaller measure.

**Proof sketch.** The search keeps its probes inside `(lower, upper)`, above the window
offset; the phases after it are `zhaoAdd_mid`, `zhaoPrune_mid` and `zhaoTail_safe`. -/
theorem zhaoBody_safe {s : ZhaoState σ α} (hs : ZhaoSafe ev cands₀ s)
    (hg : zhaoGuard ev s = true) :
    (∃ t, zhaoBody test target ev cands₀.length s = .ok (.cont t) ∧ ZhaoSafe ev cands₀ t ∧
      zhaoMeasure ev t < zhaoMeasure ev s) ∨
    (∃ t, zhaoBody test target ev cands₀.length s = .ok (.brk t) ∧ ZhaoDone ev cands₀ t) := by
  have hlen : s.cands.length = cands₀.length := hs.perm.length_eq
  have hoff : (zhaoOffset ev s.evsz : ℤ) ≤ s.lower := by
    have := zhaoOffset_le ev s.evsz
    rw [hs.lower_eq]
    omega
  have hfirst := zhaoFirstCnt_mem ev.target_cache.n_ways s (by rw [hs.lower_eq]; omega)
  obtain ⟨b, hb, hframe, -⟩ := zhaoSearch_spec test target s.cands (zhaoOffset ev s.evsz) s.st
    hoff hs.lower_lt (by have := hs.upper_le; omega) hfirst
  obtain ⟨s₁, ha, hmid, hadv⟩ := zhaoAdd_mid ev cands₀ test target hs hg hframe
  rcases zhaoPrune_mid ev cands₀ test target hmid hadv with ⟨t, hp, hdone⟩ | ⟨t, hp, hmid', hadv'⟩
  · exact .inr ⟨t, by simp [zhaoBody, hb, ha, hp], hdone⟩
  · obtain ⟨t', hm, ⟨u, hc, hdone⟩ | ⟨u, hc, hsafe, hadv''⟩⟩ :=
      zhaoTail_safe ev cands₀ hmid' hadv'
    · exact .inr ⟨u, by simp [zhaoBody, hb, ha, hp, hm, hc], hdone⟩
    · exact .inl ⟨u, by simp [zhaoBody, hb, ha, hp, hm, hc], hsafe,
        zhaoMeasure_lt ev hg hsafe.evsz_le hadv''⟩

/-- The loop invariant holds on the variables `build_evset_zhao` starts from. -/
lemma zhaoSafe_init (st : σ) (hn : 2 ≤ cands₀.length) :
    ZhaoSafe ev cands₀
      (⟨cands₀, 0, 0, cands₀.length, 0, 0, false, cands₀.length - 1, st⟩ : ZhaoState σ α) :=
  ⟨List.Perm.refl _, rfl, by dsimp only; omega, le_refl _, Nat.zero_le _, by dsimp only; omega⟩

/-- From a state with the invariant, an iteration that returns keeps it or ends the loop
with what the copy needs. -/
lemma zhaoBody_safe_of_eq {s : ZhaoState σ α} (hs : ZhaoSafe ev cands₀ s)
    (hg : zhaoGuard ev s = true) {nx : Next (ZhaoState σ α)}
    (h : zhaoBody test target ev cands₀.length s = .ok nx) :
    (∀ t, nx = .cont t → ZhaoSafe ev cands₀ t) ∧ (∀ t, nx = .brk t → ZhaoDone ev cands₀ t) := by
  rcases zhaoBody_safe ev cands₀ test target hs hg with ⟨t, ht, hsafe, -⟩ | ⟨t, ht, hdone⟩
  · rw [ht] at h
    cases h
    refine ⟨fun t' h' => ?_, fun t' h' => ?_⟩ <;> cases h'
    exact hsafe
  · rw [ht] at h
    cases h
    refine ⟨fun t' h' => ?_, fun t' h' => ?_⟩ <;> cases h'
    exact hdone

/-- **The loop of `build_evset_zhao` ends within its fuel**, from the initial variables,
for every test.

**Proof sketch.** The variant rule with `ZhaoSafe` and `zhaoMeasure`; the initial measure
is below `(max_bctr + 1)·(ev_cap + 1)`. -/
theorem zhaoLoop_spec (st : σ) (hn : 2 ≤ cands₀.length) :
    ∃ s, run (zhaoGuard ev) (zhaoBody test target ev cands₀.length) .outOfFuel (zhaoFuel ev)
        ⟨cands₀, 0, 0, cands₀.length, 0, 0, false, cands₀.length - 1, st⟩ = .ok s ∧
      ZhaoDone ev cands₀ s := by
  have hfuel : zhaoMeasure ev
      (⟨cands₀, 0, 0, cands₀.length, 0, 0, false, cands₀.length - 1, st⟩ : ZhaoState σ α) <
      zhaoFuel ev := by
    simp only [zhaoMeasure, zhaoFuel, sub_zero, Int.toNat_natCast, Nat.sub_zero, Nat.succ_mul]
    omega
  refine run_spec (zhaoGuard ev) (zhaoBody test target ev cands₀.length) Fault.outOfFuel
    (ZhaoSafe ev cands₀) (ZhaoDone ev cands₀) (zhaoMeasure ev)
    (fun s hs hg => zhaoBody_safe ev cands₀ test target hs hg) (fun s hs hg => ?_) _ _
    (zhaoSafe_init ev cands₀ st hn) hfuel
  -- the loop ends by its guard: the invariant gives everything the copy needs
  exact ⟨hs.perm, hs.evsz_le, by have := hs.lower_eq; have := hs.lower_lt; have := hs.upper_le; omega⟩

end Outer

/-! ## The builder -/

/-- The builder on at least two candidates is its loop followed by the copy of
`cands[0..evsz)` into `evset->addrs`. -/
lemma buildEvsetZhao_of_run {test : σ → α → List α → EvRes × σ} {st : σ} {target : α}
    {ev : EvSet α} {cands : List α} {s : ZhaoState σ α} (hn : 2 ≤ cands.length)
    (hrun : run (zhaoGuard ev) (zhaoBody test target ev cands.length) .outOfFuel (zhaoFuel ev)
      ⟨cands, 0, 0, cands.length, 0, 0, false, cands.length - 1, st⟩ = .ok s)
    (h₁ : s.evsz ≤ ev.addrs.length) (h₂ : s.evsz ≤ s.cands.length) :
    buildEvsetZhao test st target ev cands =
      .ok ⟨false, { ev with size := s.evsz, addrs := s.cands.take s.evsz ++ ev.addrs.drop s.evsz },
        s.cands, s.st⟩ := by
  simp [buildEvsetZhao, show ¬ cands.length ≤ 1 by omega, hrun, copy_of_le h₁ h₂]

/-- **What the builder returns.** An error for fewer than two candidates, with everything
unchanged; otherwise the loop's result, copied. -/
lemma buildEvsetZhao_eq_ok {test : σ → α → List α → EvRes × σ} {st : σ} {target : α}
    {ev : EvSet α} {cands : List α} {out : ZhaoOut σ α}
    (h : buildEvsetZhao test st target ev cands = .ok out) :
    (cands.length ≤ 1 ∧ out = ⟨true, ev, cands, st⟩) ∨
    (2 ≤ cands.length ∧ ∃ s, run (zhaoGuard ev) (zhaoBody test target ev cands.length)
        .outOfFuel (zhaoFuel ev)
        ⟨cands, 0, 0, cands.length, 0, 0, false, cands.length - 1, st⟩ = .ok s ∧
      s.evsz ≤ ev.addrs.length ∧ s.evsz ≤ s.cands.length ∧
      out = ⟨false, { ev with size := s.evsz, addrs := s.cands.take s.evsz ++ ev.addrs.drop s.evsz },
        s.cands, s.st⟩) := by
  unfold buildEvsetZhao at h
  split_ifs at h with hc
  · cases h
    exact .inl ⟨hc, rfl⟩
  · obtain ⟨s, hrun, h⟩ := bind_eq_ok h
    obtain ⟨addrs, hcopy, h⟩ := bind_eq_ok h
    obtain ⟨h₁, h₂, rfl⟩ := copy_eq_ok hcopy
    cases h
    exact .inr ⟨by omega, s, hrun, h₁, h₂, rfl⟩

/-- The copied set is the prefix of the array it was copied from. -/
lemma lines_of_copy (ev : EvSet α) (a : List α) {k : ℕ} (hk : k ≤ a.length) :
    ({ ev with size := k, addrs := a.take k ++ ev.addrs.drop k } : EvSet α).lines = a.take k := by
  simp [EvSet.lines, Nat.min_eq_left hk]

/-- **`build_evset_zhao` returns, for every test.** On at least two candidates it reports
no error, copies at most `ev_cap` lines into the `ev_cap` slots of `evset->addrs`, leaves
the candidate array a permutation of its input, and the eviction set is its prefix
`cands[0..size)`. Every access and every tested window of the run lies inside the array,
since the checked model would otherwise fail.

**Proof sketch.** `zhaoLoop_spec` gives the loop's result and what it leaves; the copy
of `evsz ≤ ev_cap` lines fits. -/
theorem buildEvsetZhao_safe (test : σ → α → List α → EvRes × σ) (st : σ) (target : α)
    (ev : EvSet α) (cands : List α) (hn : 2 ≤ cands.length)
    (hcap : ev.addrs.length = ev.ev_cap) :
    ∃ out, buildEvsetZhao test st target ev cands = .ok out ∧ out.has_err = false ∧
      out.cands.Perm cands ∧ out.evset.size ≤ ev.ev_cap ∧
      out.evset.addrs.length = ev.ev_cap ∧ out.evset.lines = out.cands.take out.evset.size := by
  obtain ⟨s, hrun, hperm, hcap', hle⟩ := zhaoLoop_spec ev cands test target st hn
  have hlen : s.cands.length = cands.length := hperm.length_eq
  refine ⟨_, buildEvsetZhao_of_run hn hrun (by omega) (by omega), rfl, hperm, hcap', ?_, ?_⟩
  · simp only [List.length_append, List.length_take, List.length_drop]
    omega
  · exact lines_of_copy ev s.cands (by omega)

/-- The builder on four lines with a test that alternates its answers, for a set of two
slots. -/
theorem buildEvsetZhao_safe_alternating :
    ∃ out, buildEvsetZhao (fun (k : ℕ) (_ : ℕ) (_ : List ℕ) =>
        (if k % 2 = 0 then EvRes.ok else EvRes.fail, k + 1)) 0 0
        ⟨[0, 0], 0, 2, 0, initDefL2Conf 0 0, ⟨64, 6, 10, 2, 1, 0⟩⟩ [1, 2, 3, 4] = .ok out ∧
      out.has_err = false ∧ out.cands.Perm [1, 2, 3, 4] ∧ out.evset.size ≤ 2 ∧
      out.evset.addrs.length = 2 ∧ out.evset.lines = out.cands.take out.evset.size :=
  buildEvsetZhao_safe _ 0 0 ⟨[0, 0], 0, 2, 0, initDefL2Conf 0 0, ⟨64, 6, 10, 2, 1, 0⟩⟩
    [1, 2, 3, 4] (by decide) rfl

end EvCache
