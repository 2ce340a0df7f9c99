import EvCache.Evset.L2
import EvCache.Evset.ZhaoIdeal

set_option autoImplicit false

/-!
# The L2 eviction-set complex against the ideal oracle

When every eviction test answers as the ideal oracle of `n_ways` congruent lines, a complex
that `build_l2_evset` returns holds `u = min(⌈num_sets / 64⌉, 2^unknown_sib)` eviction
sets at offset `0`, each of exactly `n_ways` lines congruent to its target; their targets
are pairwise non-congruent, so no line is shared and no line is another set's target; and
the sets at offset `n` are the same lines moved to offset `n · cl_size` of their pages.

## Design

Nothing here runs the construction: every fact is read off what a returned complex has
been through.

* `EvCache.L2Good` — the sets `build_single_l2_evset` returns: its own size check, and the
  congruence `build_evset_zhao` gives (`EvCache.buildEvsetZhao_lines_ideal`).
* `EvCache.validateL2Evsets_ideal` — a group that passes `validate_l2_evsets` is complete,
  and for `i < j` the target of set `j` is not evicted by set `i`. With `n_ways` congruent
  lines in set `i`, that target is not congruent to the target of set `i`.
* The count `u` of the source is `min(⌈num_sets / 64⌉, 2^unknown_sib)` whenever a group
  passes: `validate_l2_evsets` refuses an empty one, which is what `1 << unknown_sib` gives
  for a shift out of range.

## Main results

* `EvCache.singleRetry_good`, `EvCache.l2Whole_good` — what the sets kept satisfy.
* `EvCache.buildL2Evset_ideal` — the contract of the complex.
-/

namespace EvCache

open CArray

variable {r : ℕ → ℕ → Prop} (l2 : CacheInfo)

/-! ## Kept sets -/

variable (r) in
/-- A set the construction keeps under the ideal oracle: `n_ways` lines, all congruent to
its target. -/
structure L2Good (ev : EvSet ℕ) : Prop where
  size_eq : ev.size = l2.n_ways
  size_le : ev.size ≤ ev.addrs.length
  cong : ∀ x ∈ ev.lines, r x ev.target_addr

variable (r) in
/-- Every set of a list of possibly `NULL` sets is kept. -/
def AllGood (evsets : List (Option (EvSet ℕ))) : Prop := ∀ ev, some ev ∈ evsets → L2Good r l2 ev

lemma L2Good.length_lines {ev : EvSet ℕ} (h : L2Good r l2 ev) : ev.lines.length = l2.n_ways := by
  simp only [EvSet.lines, List.length_take]
  have := h.size_le
  have := h.size_eq
  omega

/-- Two kept sets with non-congruent targets share no line, and neither holds the other's
target. -/
lemma L2Good.disjoint (hr : Equivalence r) {e e' : EvSet ℕ} (he : L2Good r l2 e)
    (he' : L2Good r l2 e') (hnc : ¬ r e.target_addr e'.target_addr) :
    (∀ x ∈ e.lines, x ∉ e'.lines ∧ x ≠ e'.target_addr) ∧ ∀ x ∈ e'.lines, x ≠ e.target_addr := by
  refine ⟨fun x hx => ⟨fun hx' => ?_, fun hxt => ?_⟩, fun x hx hxt => ?_⟩
  · exact hnc (hr.trans (hr.symm (he.cong x hx)) (he'.cong x hx'))
  · exact hnc (hr.symm (hxt ▸ he.cong x hx))
  · exact hnc (hxt ▸ he'.cong x hx)

variable [DecidableRel r]

/-- **A target another set does not evict is not congruent to that set's target.** The set
has `n_ways` lines congruent to its target, so it would count them all. -/
lemma L2Good.not_cong (hr : Equivalence r) {ev : EvSet ℕ} (h : L2Good r l2 ev) {t : ℕ}
    (hlt : congCount r t ev.lines < l2.n_ways) : ¬ r t ev.target_addr := by
  intro ht
  have hall : congCount r t ev.lines = ev.lines.length :=
    congCount_eq_length r fun x hx => hr.trans (h.cong x hx) (hr.symm ht)
  rw [hall, h.length_lines] at hlt
  exact Nat.lt_irrefl _ hlt

/-! ## Group validation -/

section Validate

variable {σ : Type} (detailed : σ → ℕ → List ℕ → EvTestRes × σ)

/-- A group that passes the self-test has every set. -/
lemma validateSelf_isSome : ∀ (evsets : List (Option (EvSet ℕ))) (st : σ),
    (validateSelf detailed evsets st).1 = true → ∀ e ∈ evsets, e.isSome
  | [], _, _ => by simp
  | none :: _, _, h => by simp [validateSelf] at h
  | some ev :: rest, st, h => by
    simp only [validateSelf] at h
    split_ifs at h with h₀ h₁
    · intro e he
      rcases List.mem_cons.mp he with rfl | he
      · rfl
      · exact validateSelf_isSome rest _ h e he

end Validate

variable (r) in
/-- The check of the later targets against one set, under the ideal oracle. -/
lemma validateAgainst_ideal (ev : EvSet ℕ) : ∀ (rest : List (EvSet ℕ)),
    (validateAgainst (idealDetailed r l2.n_ways) ev rest ()).1 = true →
      ∀ e' ∈ rest, congCount r e'.target_addr ev.lines < l2.n_ways
  | [], _ => by simp
  | e' :: rest, h => by
    simp only [validateAgainst, idealDetailed] at h
    by_cases hW : l2.n_ways ≤ congCount r e'.target_addr ev.lines
    · simp [hW] at h
    · simp only [hW, if_false, ne_eq, not_true_eq_false] at h
      intro e he
      rcases List.mem_cons.mp he with rfl | he
      · omega
      · exact validateAgainst_ideal ev rest h e he

variable (r) in
lemma validatePairs_ideal : ∀ (evs : List (EvSet ℕ)),
    (validatePairs (idealDetailed r l2.n_ways) evs ()).1 = true →
      evs.Pairwise fun e e' => congCount r e'.target_addr e.lines < l2.n_ways
  | [], _ => List.Pairwise.nil
  | ev :: rest, h => by
    simp only [validatePairs] at h
    split_ifs at h with hok
    exact List.Pairwise.cons (validateAgainst_ideal r l2 ev rest hok)
      (validatePairs_ideal rest h)

variable (r) in
/-- **A group that passes `validate_l2_evsets`**, under the ideal oracle, is not empty, has
every set, and for `i < j` set `i` does not evict the target of set `j`. -/
theorem validateL2Evsets_ideal {evsets : List (Option (EvSet ℕ))}
    (h : (validateL2Evsets (idealDetailed r l2.n_ways) () evsets).1 = true) :
    evsets ≠ [] ∧ (∀ e ∈ evsets, e.isSome) ∧
      (evsets.filterMap id).Pairwise fun e e' => congCount r e'.target_addr e.lines < l2.n_ways := by
  unfold validateL2Evsets at h
  split_ifs at h with hne
  rcases hself : validateSelf (idealDetailed r l2.n_ways) evsets () with ⟨ok, st⟩
  rw [hself] at h
  cases ok
  · simp at h
  · cases st
    exact ⟨hne, validateSelf_isSome _ evsets () (by rw [hself]),
      validatePairs_ideal r l2 _ (by simpa using h)⟩

/-- A list of sets that are all there is the list of its sets. -/
lemma filterMap_id_map_some {β : Type} : ∀ {l : List (Option β)}, (∀ e ∈ l, e.isSome) →
    (l.filterMap id).map some = l
  | [], _ => rfl
  | none :: _, h => by simp at h
  | some b :: l, h => by
    have ih := @filterMap_id_map_some β l fun e he => h e (List.mem_cons_of_mem _ he)
    simpa using ih

/-! ## The count of uncertain sets -/

/-- `1 << k` in `u32` vanishes once `k` reaches the width. -/
lemma two_pow_mod_of_ge {k : ℕ} (hk : 32 ≤ k) : 2 ^ k % 2 ^ 32 = 0 := by
  have e : 2 ^ k = 2 ^ 32 * 2 ^ (k - 32) := by
    rw [← pow_add]
    congr 1
    omega
  rw [e, Nat.mul_mod_right]

/-- **The number of sets to build in closed form**, as soon as it is not zero: with 64 lines to
a page and an `i32` shift, `uncertain_sets_to_build` is `min(⌈num_sets / 64⌉, 2^unknown_sib)`. -/
lemma uncertainSetsToBuild_eq (hcl : l2.cl_size = 64)
    (hsib : -2 ^ 31 ≤ l2.unknown_sib ∧ l2.unknown_sib < 2 ^ 31) {num_sets : ℕ}
    (hnum : num_sets < 2 ^ 32 - 63) (hu : uncertainSetsToBuild l2 num_sets ≠ 0) :
    uncertainSetsToBuild l2 num_sets = min ((num_sets + 63) / 64) (2 ^ l2.unknown_sib.toNat) := by
  have hoff : nOffsets l2 = 64 := by simp [nOffsets, pageSize, hcl]
  have hceil : (num_sets + nOffsets l2 - 1) % 2 ^ 32 / nOffsets l2 = (num_sets + 63) / 64 := by
    rw [hoff, Nat.mod_eq_of_lt (by omega)]
    omega
  unfold uncertainSetsToBuild at hu ⊢
  rw [hceil] at hu ⊢
  -- a shift by `unknown_sib` as `u32` is in range only for `0 ≤ unknown_sib < 32`
  have hk : (l2.unknown_sib % 2 ^ 32).toNat = l2.unknown_sib.toNat ∧ l2.unknown_sib.toNat < 32 := by
    by_contra hbad
    have hge : 32 ≤ (l2.unknown_sib % 2 ^ 32).toNat := by
      rcases le_or_gt 0 l2.unknown_sib with h0 | h0
      · rw [Int.emod_eq_of_lt h0 (by omega)] at hbad ⊢
        omega
      · have e : l2.unknown_sib % 2 ^ 32 = l2.unknown_sib + 2 ^ 32 := by omega
        rw [e]
        omega
    apply hu
    rw [nUncertainSets, two_pow_mod_of_ge hge, Nat.min_zero]
  have hlt : 2 ^ l2.unknown_sib.toNat < 2 ^ 32 := Nat.pow_lt_pow_right (by norm_num) hk.2
  simp only [nUncertainSets, hk.1, Nat.mod_eq_of_lt hlt]

/-! ## The shifted sets -/

/-- The shifted set has the same lines, each moved to offset `offset` of its page. -/
lemma lines_evsetShift {ev : EvSet ℕ} (h : ev.size ≤ ev.addrs.length) (offset : ℕ) :
    (evsetShift ev offset).lines = ev.lines.map fun a => a / pageSize * pageSize + offset := by
  simp only [evsetShift, EvSet.lines]
  have hlen : ((ev.addrs.take ev.size).map fun a => a / pageSize * pageSize + offset).length =
      ev.size := by
    simp only [List.length_map, List.length_take]
    omega
  rw [List.take_append_of_le_length hlen.ge, List.take_of_length_le hlen.le]

lemma length_l2Complex (evsets : List (Option (EvSet ℕ))) :
    (l2Complex l2 evsets).length = nOffsets l2 := by
  simp [l2Complex]

lemma getElem?_l2Complex (evsets : List (Option (EvSet ℕ))) {n : ℕ} (hn : n < nOffsets l2) :
    (l2Complex l2 evsets)[n]? =
      some (if n = 0 then evsets else evsets.map (Option.map (evsetShift · (n * l2.cl_size)))) := by
  simp [l2Complex, hn]

/-! ## The sets the construction keeps -/

/-- What a build leaves of the set it was given: its target, cache and configuration, and
after a success a size within its slots. -/
lemma buildEvsetZhao_evset {σ α : Type} {test : σ → α → List α → EvRes × σ} {st : σ}
    {target : α} {ev : EvSet α} {cands : List α} {out : ZhaoOut σ α}
    (h : buildEvsetZhao test st target ev cands = .ok out) :
    out.evset.target_addr = ev.target_addr ∧ out.evset.target_cache = ev.target_cache ∧
      out.evset.build_conf = ev.build_conf ∧
      (out.has_err = false → out.evset.size ≤ out.evset.addrs.length) := by
  rcases buildEvsetZhao_eq_ok h with ⟨-, rfl⟩ | ⟨-, s, -, h₁, h₂, rfl⟩
  · exact ⟨rfl, rfl, rfl, fun h => by cases h⟩
  · refine ⟨rfl, rfl, rfl, fun _ => ?_⟩
    simp only [List.length_append, List.length_take, List.length_drop]
    omega

lemma singleFailed_false {σ : Type} {detailed : σ → ℕ → List ℕ → EvTestRes × σ}
    {out : ZhaoOut σ ℕ} {t : ℕ} {st : σ} (h : singleFailed detailed l2 out t = (false, st)) :
    out.has_err = false ∧ out.evset.size = l2.n_ways := by
  unfold singleFailed at h
  by_cases h₁ : out.has_err = true
  · simp [h₁] at h
  · by_cases h₂ : out.evset.size = l2.n_ways
    · exact ⟨by simpa using h₁, h₂⟩
    · simp [h₁, h₂] at h

variable (r) in
/-- **A set `build_single_l2_evset` returns is kept**: it passed the size check, and the
builder made it of lines congruent to its target. The retries start over on another
target; the induction is on the attempts left. -/
theorem singleRetry_good (hr : Equivalence r) (all_addrs : List ℕ) :
    ∀ (n : ℕ) (evset : EvSet ℕ) (cands : List ℕ) (t : ℕ), evset.target_cache = l2 →
      evset.build_conf.extra_cong = 0 → ∀ {ev : EvSet ℕ} {cands' : List ℕ},
      singleRetry (idealDetailed r l2.n_ways) l2 all_addrs n evset cands t () =
        .ok (some ev, cands', ()) → L2Good r l2 ev := by
  intro n
  induction n with
  | zero =>
    intro evset cands t _ _ ev cands' h
    simp [singleRetry] at h
  | succ n ih =>
    intro evset cands t hcache hextra ev cands' h
    simp only [singleRetry] at h
    obtain ⟨out, hz, h⟩ := bind_eq_ok h
    rw [testEviction_idealDetailed] at hz
    obtain ⟨htarget, hcache', hconf, hsize⟩ := buildEvsetZhao_evset hz
    rcases hf : singleFailed (idealDetailed r l2.n_ways) l2 out t with ⟨failed, st⟩
    rw [hf] at h
    cases failed with
    | true =>
      -- a failed check: the next attempt, from a fresh target, returned the set
      simp only [if_true] at h
      rcases hp : pickL2Target (idealDetailed r l2.n_ways) st out.cands t all_addrs with
        ⟨_ | ⟨t', c'⟩, st'⟩ <;> rw [hp] at h
      · cases h
      · exact ih out.evset c' t' (hcache'.trans hcache) (hconf ▸ hextra) h
    | false =>
      simp only [Bool.false_eq_true, if_false] at h
      cases h
      obtain ⟨herr, hsz⟩ := singleFailed_false l2 hf
      refine ⟨hsz, hsize herr, ?_⟩
      -- the congruence of the built lines, for `n_ways ≥ 1`; with no way there is no line
      rcases Nat.eq_zero_or_pos l2.n_ways with h0 | hpos
      · intro x hx
        simp [EvSet.lines, hsz, h0] at hx
      · rw [htarget]
        rw [← hcache] at hz
        exact buildEvsetZhao_lines_ideal hr t ({ evset with size := 0, target_addr := t } : EvSet ℕ)
          cands (by rw [hcache]; exact hpos) hextra hz herr

variable (r) in
lemma buildSingleL2Evset_good (hr : Equivalence r) (cand_scaling : ℕ) (l2_thresh : ℤ)
    {cands : List ℕ} {target : ℕ} {all_addrs : List ℕ} {ev : EvSet ℕ} {cands' : List ℕ}
    (h : buildSingleL2Evset (idealDetailed r l2.n_ways) l2 cand_scaling l2_thresh () cands target
      all_addrs = .ok (some ev, cands', ())) : L2Good r l2 ev := by
  unfold buildSingleL2Evset at h
  rcases hp : (if target = 0 then pickL2Target (idealDetailed r l2.n_ways) () cands 0 all_addrs
      else (some (target, cands), ())) with ⟨_ | ⟨t, c⟩, st⟩ <;> rw [hp] at h
  · cases h
  · cases st
    exact singleRetry_good r l2 hr all_addrs _ _ c t rfl rfl h

omit [DecidableRel r] in
variable {l2} in
lemma AllGood.append_none {evsets : List (Option (EvSet ℕ))} (h : AllGood r l2 evsets) :
    AllGood r l2 (evsets ++ [none]) := by
  intro ev hev
  rcases List.mem_append.mp hev with hev | hev
  · exact h ev hev
  · simp at hev

omit [DecidableRel r] in
variable {l2} in
lemma AllGood.append_some {evsets : List (Option (EvSet ℕ))} (h : AllGood r l2 evsets)
    {ev : EvSet ℕ} (hev : L2Good r l2 ev) : AllGood r l2 (evsets ++ [some ev]) := by
  intro e he
  rcases List.mem_append.mp he with he | he
  · exact h e he
  · rw [List.mem_singleton, Option.some.injEq] at he
    exact he ▸ hev

section Loop

variable (r) (cand_scaling : ℕ) (l2_thresh : ℤ)

/-- One iteration of the loop over the uncertain sets adds one entry, and keeps only kept
sets. -/
lemma l2SetStep_good (hr : Equivalence r) {s s' : L2Loop Unit} {i : ℕ}
    (hs : AllGood r l2 s.evsets)
    (h : l2SetStep (idealDetailed r l2.n_ways) l2 cand_scaling l2_thresh s i = .ok s') :
    AllGood r l2 s'.evsets ∧ s'.evsets.length = s.evsets.length + 1 := by
  unfold l2SetStep at h
  rcases hp : (if i = 0 then (some (s.target, s.cands), s.st)
      else pickL2Target (idealDetailed r l2.n_ways) s.st s.cands s.target s.all_addrs) with
    ⟨_ | ⟨t, c⟩, st⟩ <;> rw [hp] at h
  · -- no target: a `NULL` entry
    cases h
    exact ⟨hs.append_none, by simp⟩
  · obtain ⟨⟨ev?, c', st'⟩, hb, h⟩ := bind_eq_ok h
    cases st
    cases st'
    cases ev? with
    | none =>
      cases h
      exact ⟨hs.append_none, by simp⟩
    | some ev =>
      rcases hv : verifyRetry (idealDetailed r l2.n_ways) ev 3 () with ⟨failed, st''⟩
      simp only [hv] at h
      cases failed with
      | true =>
        cases h
        exact ⟨hs.append_none, by simp⟩
      | false =>
        simp only [Bool.false_eq_true, if_false] at h
        cases h
        exact ⟨hs.append_some (buildSingleL2Evset_good r l2 hr cand_scaling l2_thresh hb),
          by simp⟩

lemma foldlM_l2SetStep_good (hr : Equivalence r) : ∀ (is : List ℕ) (s s' : L2Loop Unit),
    AllGood r l2 s.evsets →
      is.foldlM (l2SetStep (idealDetailed r l2.n_ways) l2 cand_scaling l2_thresh) s = .ok s' →
      AllGood r l2 s'.evsets ∧ s'.evsets.length = s.evsets.length + is.length
  | [], s, s', hs, h => by
    simp only [List.foldlM_nil, pure_eq_ok] at h
    cases h
    exact ⟨hs, rfl⟩
  | i :: is, s, s', hs, h => by
    rw [List.foldlM_cons] at h
    obtain ⟨s₁, h₁, h⟩ := bind_eq_ok h
    obtain ⟨hg₁, hl₁⟩ := l2SetStep_good r l2 cand_scaling l2_thresh hr hs h₁
    obtain ⟨hg, hl⟩ := foldlM_l2SetStep_good hr is s₁ s' hg₁ h
    refine ⟨hg, ?_⟩
    simp only [List.length_cons]
    omega

/-- A whole attempt that gets past its initial target has one entry for each uncertain set,
each one `NULL` or kept. -/
lemma l2Attempt_good (hr : Equivalence r) {u : ℕ} {cands : List ℕ}
    {evsets : List (Option (EvSet ℕ))}
    (h : l2Attempt (idealDetailed r l2.n_ways) l2 cand_scaling l2_thresh u () cands =
      .ok (some evsets, ())) : AllGood r l2 evsets ∧ evsets.length = u := by
  unfold l2Attempt at h
  rcases hp : pickL2Target (idealDetailed r l2.n_ways) () cands 0 [] with
    ⟨_ | ⟨t, c⟩, st⟩ <;> rw [hp] at h
  · cases h
  · obtain ⟨s, hs, h⟩ := bind_eq_ok h
    cases h
    obtain ⟨hg, hl⟩ := foldlM_l2SetStep_good r l2 cand_scaling l2_thresh hr _ _ s
      (fun ev hev => by simp at hev) hs
    exact ⟨hg, by simpa using hl⟩

/-- **A complex the whole-procedure loop returns** comes from an attempt whose entries are
all kept sets, one for each uncertain set, and which passed `validate_l2_evsets`. The
induction is on the attempts left. -/
theorem l2Whole_good (hr : Equivalence r) (verbose : ℤ) (pools : ℕ → Option (List ℕ))
    (u max_whole_ret : ℕ) : ∀ (fuel whole_ret : ℕ) {complex : List (List (Option (EvSet ℕ)))},
    l2Whole (idealDetailed r l2.n_ways) l2 cand_scaling l2_thresh verbose pools u max_whole_ret
      fuel whole_ret () = .ok (some complex, ()) →
    ∃ evsets, AllGood r l2 evsets ∧ evsets.length = u ∧
      (validateL2Evsets (idealDetailed r l2.n_ways) () evsets).1 = true ∧
      complex = l2Complex l2 evsets := by
  intro fuel
  induction fuel with
  | zero => intro whole_ret complex h; cases h
  | succ fuel ih =>
    intro whole_ret complex h
    simp only [l2Whole] at h
    cases hpool : pools whole_ret with
    | none => rw [hpool] at h; cases h
    | some cands =>
      rw [hpool] at h
      obtain ⟨⟨res, st⟩, hatt, h⟩ := bind_eq_ok h
      cases st
      cases res with
      | none => cases h
      | some evsets =>
        obtain ⟨hgood, hlen⟩ := l2Attempt_good r l2 cand_scaling l2_thresh hr hatt
        rcases hv : (if evsets.countP Option.isSome = u then
            validateL2Evsets (idealDetailed r l2.n_ways) () evsets else (false, ())) with
          ⟨valid, st⟩
        simp only [hv] at h
        cases valid with
        | true =>
          -- the group passed: this is the complex returned
          simp only [if_true] at h
          cases h
          have hval : (validateL2Evsets (idealDetailed r l2.n_ways) () evsets).1 = true := by
            split_ifs at hv
            · rw [hv]
            · cases hv
          exact ⟨evsets, hgood, hlen, hval, rfl⟩
        | false =>
          -- the group failed: only a further attempt can return a complex
          simp only [Bool.false_eq_true, if_false] at h
          split_ifs at h
          · simp at h
          · exact ih (whole_ret + 1) h
          · simp at h

end Loop

/-! ## The complex -/

variable (r) in
/-- **The L2 eviction-set complex against the ideal oracle.** For 64-byte lines and
`1 ≤ num_sets < 2^32 - 63`, a complex that `build_l2_evset(num_sets)` returns holds at
offset `0` the `u = min(⌈num_sets / 64⌉, 2^unknown_sib)` eviction sets, none `NULL`, each
of exactly `n_ways` lines congruent to its target; any two have non-congruent targets,
share no line, and neither holds the other's target; and for every offset index
`n ∈ [1, 64)`, the sets at `n` are the same lines moved to offset `n · cl_size` of their
pages.

**Proof sketch.** `l2Whole_good` gives the group behind the complex, whose sets are kept
(`L2Good`) and which passed `validate_l2_evsets`. The check for `i < j` says that set `i`
does not evict the target of set `j`, so the two targets are not congruent
(`L2Good.not_cong`); the congruence is symmetric, and distinct classes share no line
(`L2Good.disjoint`). The group is not empty, so its size `uncertain_sets_to_build` is
`u` (`uncertainSetsToBuild_eq`). -/
theorem buildL2Evset_ideal (hr : Equivalence r) (hcl : l2.cl_size = 64)
    (hsib : -2 ^ 31 ≤ l2.unknown_sib ∧ l2.unknown_sib < 2 ^ 31) (cand_scaling : ℕ)
    (l2_thresh verbose : ℤ) (pools : ℕ → Option (List ℕ)) (num_sets : ℕ)
    (hnum : 1 ≤ num_sets ∧ num_sets < 2 ^ 32 - 63) {complex : List (List (Option (EvSet ℕ)))}
    (h : buildL2Evset (idealDetailed r l2.n_ways) l2 cand_scaling l2_thresh verbose pools ()
      num_sets = .ok (some complex, ())) :
    ∃ evs : List (EvSet ℕ), evs.length = min ((num_sets + 63) / 64) (2 ^ l2.unknown_sib.toNat) ∧
      complex.length = 64 ∧ complex[0]? = some (evs.map some) ∧
      (∀ e ∈ evs, e.size = l2.n_ways ∧ ∀ x ∈ e.lines, r x e.target_addr) ∧
      evs.Pairwise (fun e e' => ¬ r e.target_addr e'.target_addr ∧
        (∀ x ∈ e.lines, x ∉ e'.lines ∧ x ≠ e'.target_addr) ∧ ∀ x ∈ e'.lines, x ≠ e.target_addr) ∧
      ∀ n, 1 ≤ n → n < 64 → ∃ evs', complex[n]? = some (evs'.map some) ∧
        List.Forall₂ (fun e e' => e'.size = e.size ∧
          e'.lines = e.lines.map fun a => a / pageSize * pageSize + n * l2.cl_size) evs evs' := by
  obtain ⟨evsets, hgood, hlen, hval, rfl⟩ := l2Whole_good r l2 cand_scaling l2_thresh hr verbose
    pools _ _ _ _ h
  obtain ⟨hne, hsome, hpair⟩ := validateL2Evsets_ideal r l2 hval
  have hmap : (evsets.filterMap id).map some = evsets := filterMap_id_map_some hsome
  have hgood' : ∀ e ∈ evsets.filterMap id, L2Good r l2 e := fun e he =>
    hgood e (by rw [← hmap]; exact List.mem_map_of_mem he)
  have hoff : nOffsets l2 = 64 := by simp [nOffsets, pageSize, hcl]
  have hu : uncertainSetsToBuild l2 num_sets ≠ 0 := by
    rw [← hlen]
    intro h0
    exact hne (List.length_eq_zero_iff.mp h0)
  refine ⟨evsets.filterMap id, ?_, by rw [length_l2Complex, hoff], ?_, fun e he =>
    ⟨(hgood' e he).size_eq, (hgood' e he).cong⟩, ?_, fun n hn₁ hn₂ => ?_⟩
  · have hl := congrArg List.length hmap
    rw [List.length_map] at hl
    rw [hl, hlen, uncertainSetsToBuild_eq l2 hcl hsib hnum.2 hu]
  · rw [getElem?_l2Complex l2 evsets (by omega), if_pos rfl, hmap]
  · -- set `i` does not evict the target of set `j`, so the targets are not congruent
    refine hpair.imp_of_mem fun {e e'} he he' hlt => ?_
    have hnc : ¬ r e.target_addr e'.target_addr := fun hc =>
      (hgood' e he).not_cong l2 hr hlt (hr.symm hc)
    exact ⟨hnc, (hgood' e he).disjoint l2 hr (hgood' e' he') hnc⟩
  · refine ⟨(evsets.filterMap id).map (evsetShift · (n * l2.cl_size)), ?_, ?_⟩
    · rw [getElem?_l2Complex l2 evsets (by omega), if_neg (by omega), ← hmap]
      simp [List.map_map, Function.comp_def]
    · refine List.forall₂_map_right_iff.mpr (List.forall₂_same.mpr fun e he => ⟨rfl, ?_⟩)
      exact lines_evsetShift (hgood' e he).size_le _

/-- A one-way cache with one uncertain set, lines grouped by parity, and the pool
`[2, 4, 5]`: the construction returns, and the contract holds of its complex. -/
theorem buildL2Evset_ideal_parity :
    ∃ complex, buildL2Evset (idealDetailed (fun x y : ℕ => x % 2 = y % 2) 1)
        ⟨64, 6, 10, 1, 1, 0⟩ 0 0 0 (fun _ => some [2, 4, 5]) () 1 = .ok (some complex, ()) ∧
      ∃ evs : List (EvSet ℕ), evs.length = min ((1 + 63) / 64) (2 ^ (0 : ℤ).toNat) ∧
        complex.length = 64 ∧ complex[0]? = some (evs.map some) ∧
        (∀ e ∈ evs, e.size = 1 ∧ ∀ x ∈ e.lines, x % 2 = e.target_addr % 2) ∧
        evs.Pairwise (fun e e' => ¬ e.target_addr % 2 = e'.target_addr % 2 ∧
          (∀ x ∈ e.lines, x ∉ e'.lines ∧ x ≠ e'.target_addr) ∧
          ∀ x ∈ e'.lines, x ≠ e.target_addr) ∧
        ∀ n, 1 ≤ n → n < 64 → ∃ evs', complex[n]? = some (evs'.map some) ∧
          List.Forall₂ (fun e e' => e'.size = e.size ∧
            e'.lines = e.lines.map fun a => a / pageSize * pageSize + n * 64) evs evs' :=
  ⟨_, rfl, @buildL2Evset_ideal (fun x y : ℕ => x % 2 = y % 2) ⟨64, 6, 10, 1, 1, 0⟩ _
    ⟨fun _ => rfl, Eq.symm, Eq.trans⟩ rfl (by norm_num) 0 0 0 (fun _ => some [2, 4, 5]) 1
    (by norm_num) _ rfl⟩

end EvCache
