import EvCache.Lib.CArray
import Mathlib.Algebra.Order.BigOperators.Group.Finset
import Mathlib.Data.Finset.Card
import Mathlib.Algebra.Group.Action.Defs

set_option autoImplicit false

/-!
# Frequency tables of bounded capacity

The C idiom that counts the values of an array in two fixed arrays `vals[cap]` and
`freqs[cap]`, the first `num_vals` entries in use: each value is looked up by a linear search,
its frequency goes up if it is there, and otherwise it takes the next free entry with frequency
one. The arrays are not grown, so a value that comes when all `cap` entries are in use is
written past their end.

A table that has counted a list holds its distinct values, each once, with their counts
(`FreqTable.Counts`); a run over a list succeeds exactly when the list has at most `cap`
distinct values, and faults otherwise. With at most `d` distinct values some value occurs at
least `⌊n / d⌋` times in a list of length `n` (`FreqTable.exists_count_ge`).

## Main definitions

* `FreqTable.Table`, `FreqTable.empty` — the arrays and the count in use.
* `FreqTable.Table.insert` — one value counted.
* `FreqTable.Counts` — the table has counted a list.

## Main results

* `FreqTable.foldlM_insert_ok`, `FreqTable.foldlM_insert_error` — a run over a list succeeds
  with a table that counts it when the list has at most `cap` distinct values, and faults
  when it has more.
* `FreqTable.exists_count_ge` — the pigeonhole bound on the largest frequency.
-/

namespace CArray

universe u

variable {α : Type u}

lemma set_of_length_le {a : List α} {i : ℕ} (h : a.length ≤ i) (x : α) :
    set a i x = .error (.outOfBounds i a.length) := by
  simp [set, get, Nat.not_lt.mpr h]

/-- The first `n + 1` entries after a write at `n`. -/
lemma take_succ_set {l : List α} {n : ℕ} (h : n < l.length) (x : α) :
    (l.set n x).take (n + 1) = l.take n ++ [x] := by
  simp [List.set_eq_take_append_cons_drop, h, List.take_append, Nat.min_eq_left h.le]

end CArray

namespace FreqTable

open CArray

/-- The two arrays of a frequency table and the number of entries in use. -/
structure Table (α : Type) where
  vals : List α
  freqs : List ℕ
  num_vals : ℕ

variable {α : Type} [DecidableEq α]

/-- The empty table of capacity `cap`, its arrays filled with `init` and `0`. -/
def empty (init : α) (cap : ℕ) : Table α := ⟨List.replicate cap init, List.replicate cap 0, 0⟩

/-- The search `for (j = 0; j < num_vals; j++) if (vals[j] == val) ...`: the first entry in
use that holds `val`. -/
def Table.find (t : Table α) (val : α) : Option ℕ :=
  (List.range t.num_vals).find? fun j => t.vals[j]? = some val

/-- Count one more `val`: `freqs[j]++` at its entry `j`, or, when it is not in the table,
`vals[num_vals] = val; freqs[num_vals] = 1; num_vals++`, which faults on full arrays. -/
def Table.insert (t : Table α) (val : α) : Except Fault (Table α) :=
  match t.find val with
  | some j => do
    let freqs ← CArray.set t.freqs j (t.freqs.getD j 0 + 1)
    pure { t with freqs := freqs }
  | none => do
    let vals ← CArray.set t.vals t.num_vals val
    let freqs ← CArray.set t.freqs t.num_vals 1
    pure ⟨vals, freqs, t.num_vals + 1⟩

/-! ## The search -/

lemma find_some {t : Table α} {val : α} {j : ℕ} (h : t.find val = some j) :
    j < t.num_vals ∧ t.vals[j]? = some val := by
  have hmem := List.mem_of_find?_eq_some h
  have hp := List.find?_some h
  exact ⟨List.mem_range.mp hmem, by simpa using hp⟩

lemma not_mem_of_find_none {t : Table α} {val : α} (h : t.find val = none) :
    val ∉ t.vals.take t.num_vals := by
  intro hval
  obtain ⟨j, hj, hjv⟩ := List.getElem_of_mem hval
  have hjn : j < t.num_vals := by
    have := List.length_take_le t.num_vals t.vals
    simp only [List.length_take] at hj
    omega
  have hno := List.find?_eq_none.mp h j (List.mem_range.mpr hjn)
  have hjl : j < t.vals.length := by simp only [List.length_take] at hj; omega
  rw [List.getElem_take] at hjv
  exact hno (by simp [List.getElem?_eq_getElem hjl, hjv])

/-! ## Counting -/

/-- The table has counted `xs` in arrays of `cap` entries: the values in use are the distinct
values of `xs`, each once, and each has its count in `xs` as its frequency. -/
structure Counts (cap : ℕ) (xs : List α) (t : Table α) : Prop where
  length_vals : t.vals.length = cap
  length_freqs : t.freqs.length = cap
  le_cap : t.num_vals ≤ cap
  nodup : (t.vals.take t.num_vals).Nodup
  mem_iff : ∀ a, a ∈ t.vals.take t.num_vals ↔ a ∈ xs
  freq : ∀ j < t.num_vals, ∀ a, t.vals[j]? = some a → t.freqs.getD j 0 = xs.count a

lemma counts_empty (init : α) (cap : ℕ) : Counts cap [] (empty init cap) :=
  ⟨by simp [empty], by simp [empty], by simp [empty], by simp [empty], by simp [empty],
    fun j hj => by simp [empty] at hj⟩

variable {cap : ℕ} {xs : List α} {t : Table α}

/-- The entries in use are as many as the distinct values. -/
lemma Counts.num_vals_eq (h : Counts cap xs t) : t.num_vals = xs.toFinset.card := by
  have hset : (t.vals.take t.num_vals).toFinset = xs.toFinset := by
    ext a
    simp [h.mem_iff a]
  rw [← hset, List.toFinset_card_of_nodup h.nodup, List.length_take,
    Nat.min_eq_left (h.length_vals ▸ h.le_cap)]

lemma Counts.length_take (h : Counts cap xs t) :
    (t.vals.take t.num_vals).length = t.num_vals := by
  rw [List.length_take, Nat.min_eq_left (h.length_vals ▸ h.le_cap)]

/-- Two entries in use that hold the same value are one entry. -/
lemma Counts.eq_of_getElem? (h : Counts cap xs t) {i j : ℕ} (hi : i < t.num_vals)
    (hj : j < t.num_vals) {a : α} (hia : t.vals[i]? = some a) (hja : t.vals[j]? = some a) :
    i = j := by
  by_contra hij
  have hnd := List.nodup_iff_getElem?_ne_getElem?.mp h.nodup
  have heq : (t.vals.take t.num_vals)[i]? = (t.vals.take t.num_vals)[j]? := by
    rw [List.getElem?_take_of_lt hi, List.getElem?_take_of_lt hj, hia, hja]
  rcases Nat.lt_or_gt_of_ne hij with hlt | hlt
  · exact hnd i j hlt (by rw [h.length_take]; exact hj) heq
  · exact hnd j i hlt (by rw [h.length_take]; exact hi) heq.symm

lemma Counts.getElem?_of_lt (h : Counts cap xs t) {i : ℕ} (hi : i < t.num_vals) (d : α) :
    t.vals[i]? = some (t.vals.getD i d) := by
  have hil : i < t.vals.length := by rw [h.length_vals]; exact lt_of_lt_of_le hi h.le_cap
  simp [List.getD_eq_getElem?_getD, List.getElem?_eq_getElem hil]

/-- The value of an entry in use is a value of the list. -/
lemma Counts.getD_mem (h : Counts cap xs t) {i : ℕ} (hi : i < t.num_vals) (d : α) :
    t.vals.getD i d ∈ xs := by
  have hget : (t.vals.take t.num_vals)[i]? = some (t.vals.getD i d) := by
    rw [List.getElem?_take_of_lt hi]
    exact h.getElem?_of_lt hi d
  exact (h.mem_iff _).mp (List.mem_of_getElem? hget)

/-- A value already counted: its frequency goes up by one. -/
lemma Counts.insert_of_mem (h : Counts cap xs t) {val : α} (hval : val ∈ xs) :
    ∃ t', t.insert val = .ok t' ∧ Counts cap (xs ++ [val]) t' := by
  cases hf : t.find val with
  | none => exact absurd ((h.mem_iff val).mpr hval) (not_mem_of_find_none hf)
  | some j =>
    obtain ⟨hj, hjv⟩ := find_some hf
    have hjf : j < t.freqs.length := by rw [h.length_freqs]; exact lt_of_lt_of_le hj h.le_cap
    refine ⟨{ t with freqs := t.freqs.set j (t.freqs.getD j 0 + 1) }, ?_, ?_⟩
    · simp [Table.insert, hf, set_of_lt hjf]
    refine ⟨h.length_vals, by simp [h.length_freqs], h.le_cap, h.nodup, fun a => ?_,
      fun i hi a hia => ?_⟩
    · rw [h.mem_iff a, List.mem_append, List.mem_singleton]
      exact ⟨Or.inl, fun ha => ha.elim id fun hav => hav ▸ hval⟩
    dsimp only at hi hia ⊢
    rw [List.count_append, List.count_singleton]
    have hfi : t.freqs[i]?.getD 0 = xs.count a := by
      rw [← List.getD_eq_getElem?_getD]
      exact h.freq i hi a hia
    by_cases hij : i = j
    · subst hij
      have hav : a = val := Option.some.inj (hia.symm.trans hjv)
      subst hav
      simp [List.getD_eq_getElem?_getD, List.getElem?_set_self hjf, hfi]
    · -- another entry: its value is not `val`, as the values in use are distinct
      have hne : a ≠ val := fun hav => hij (h.eq_of_getElem? hi hj hia (hav ▸ hjv))
      simp [List.getD_eq_getElem?_getD, List.getElem?_set_ne (Ne.symm hij), hfi, Ne.symm hne]

lemma find_none_of_not_mem (h : Counts cap xs t) {val : α} (hval : val ∉ xs) :
    t.find val = none := by
  cases hf : t.find val with
  | none => rfl
  | some j =>
    obtain ⟨hj, hjv⟩ := find_some hf
    refine absurd ((h.mem_iff val).mp ?_) hval
    rw [← List.getElem?_take_of_lt hj] at hjv
    exact List.mem_of_getElem? hjv

/-- A new value with room for it: it takes the next entry, with frequency one. -/
lemma Counts.insert_of_not_mem (h : Counts cap xs t) {val : α} (hval : val ∉ xs)
    (hroom : t.num_vals < cap) :
    ∃ t', t.insert val = .ok t' ∧ Counts cap (xs ++ [val]) t' := by
  have hv : t.num_vals < t.vals.length := h.length_vals ▸ hroom
  have hf : t.num_vals < t.freqs.length := h.length_freqs ▸ hroom
  refine ⟨⟨t.vals.set t.num_vals val, t.freqs.set t.num_vals 1, t.num_vals + 1⟩, ?_, ?_⟩
  · simp [Table.insert, find_none_of_not_mem h hval, set_of_lt hv, set_of_lt hf]
  have hnotin : val ∉ t.vals.take t.num_vals := fun hin => hval ((h.mem_iff val).mp hin)
  refine ⟨by simp [h.length_vals], by simp [h.length_freqs], hroom, ?_, fun a => ?_,
    fun i hi a hia => ?_⟩
  · rw [take_succ_set hv]
    exact h.nodup.append (List.nodup_singleton val) (List.disjoint_singleton.mpr hnotin)
  · rw [take_succ_set hv, List.mem_append, List.mem_append, h.mem_iff a]
  · dsimp only at hi hia ⊢
    rw [List.count_append, List.count_singleton]
    rcases Nat.lt_succ_iff_lt_or_eq.mp hi with hi | rfl
    · -- an old entry keeps its value and frequency, and its value is not `val`
      have hne : i ≠ t.num_vals := Nat.ne_of_lt hi
      rw [List.getElem?_set_ne (Ne.symm hne)] at hia
      have hav : a ≠ val := by
        rintro rfl
        rw [← List.getElem?_take_of_lt hi] at hia
        exact hnotin (List.mem_of_getElem? hia)
      have hfi : t.freqs[i]?.getD 0 = xs.count a := by
        rw [← List.getD_eq_getElem?_getD]
        exact h.freq i hi a hia
      simp [List.getD_eq_getElem?_getD, List.getElem?_set_ne (Ne.symm hne), hfi, Ne.symm hav]
    · -- the new entry
      rw [List.getElem?_set_self hv] at hia
      have hav : val = a := Option.some.inj hia
      subst hav
      simp [List.getD_eq_getElem?_getD, List.getElem?_set_self hf, List.count_eq_zero.mpr hval]

/-- A new value on full arrays is written past their end. -/
lemma Counts.insert_of_full (h : Counts cap xs t) {val : α} (hval : val ∉ xs)
    (hfull : t.num_vals = cap) : ∃ e, t.insert val = .error e := by
  have hv : t.vals.length ≤ t.num_vals := by rw [h.length_vals, hfull]
  exact ⟨.outOfBounds t.num_vals t.vals.length,
    by simp [Table.insert, find_none_of_not_mem h hval, set_of_length_le hv]⟩

/-- One value more: the distinct values of `ys ++ x :: xs` count those of `ys` and `x` when it
is new. -/
lemma card_toFinset_lt_of_not_mem {ys xs : List α} {x : α} (hx : x ∉ ys) :
    ys.toFinset.card < (ys ++ x :: xs).toFinset.card := by
  have hsub : insert x ys.toFinset ⊆ (ys ++ x :: xs).toFinset := by
    intro a ha
    simp only [Finset.mem_insert, List.mem_toFinset] at ha ⊢
    rcases ha with rfl | ha <;> simp [*]
  calc ys.toFinset.card < (insert x ys.toFinset).card := by
        rw [Finset.card_insert_of_notMem (by simpa using hx)]
        exact Nat.lt_succ_self _
    _ ≤ _ := Finset.card_le_card hsub

/-- **A run over a list with at most `cap` distinct values succeeds**, with a table that counts
the list.

**Proof sketch.** Induction on the values still to count, from a table that counts those
counted: a known value only raises a frequency, and a new one finds a free entry, as the
values counted so far and the new one are at most `cap`. -/
lemma foldlM_insert_ok : ∀ (xs ys : List α) (t : Table α), Counts cap ys t →
    (ys ++ xs).toFinset.card ≤ cap →
      ∃ t', xs.foldlM Table.insert t = .ok t' ∧ Counts cap (ys ++ xs) t'
  | [], ys, t, h, _ => ⟨t, rfl, by simpa using h⟩
  | x :: xs, ys, t, h, hcard => by
    have hstep : ∃ t', t.insert x = .ok t' ∧ Counts cap (ys ++ [x]) t' := by
      by_cases hx : x ∈ ys
      · exact h.insert_of_mem hx
      · refine h.insert_of_not_mem hx ?_
        rw [h.num_vals_eq]
        exact lt_of_lt_of_le (card_toFinset_lt_of_not_mem hx) hcard
    obtain ⟨t', ht', h'⟩ := hstep
    obtain ⟨t'', ht'', h''⟩ := foldlM_insert_ok xs (ys ++ [x]) t' h' (by simpa using hcard)
    exact ⟨t'', by rw [List.foldlM_cons, ht', ok_bind, ht''], by simpa using h''⟩

/-- **A run over a list with more than `cap` distinct values faults.**

**Proof sketch.** Induction as for `foldlM_insert_ok`: the first value that finds the arrays
full is new, and its write is past their end. -/
lemma foldlM_insert_error : ∀ (xs ys : List α) (t : Table α), Counts cap ys t →
    cap < (ys ++ xs).toFinset.card → ∃ e, xs.foldlM Table.insert t = .error e
  | [], ys, t, h, hcard => by
    rw [List.append_nil, ← h.num_vals_eq] at hcard
    exact absurd h.le_cap (Nat.not_le.mpr hcard)
  | x :: xs, ys, t, h, hcard => by
    by_cases hx : x ∈ ys
    · obtain ⟨t', ht', h'⟩ := h.insert_of_mem hx
      obtain ⟨e, he⟩ := foldlM_insert_error xs (ys ++ [x]) t' h' (by simpa using hcard)
      exact ⟨e, by rw [List.foldlM_cons, ht', ok_bind, he]⟩
    · rcases Nat.lt_or_ge t.num_vals cap with hroom | hfull
      · obtain ⟨t', ht', h'⟩ := h.insert_of_not_mem hx hroom
        obtain ⟨e, he⟩ := foldlM_insert_error xs (ys ++ [x]) t' h' (by simpa using hcard)
        exact ⟨e, by rw [List.foldlM_cons, ht', ok_bind, he]⟩
      · obtain ⟨e, he⟩ := h.insert_of_full hx (le_antisymm h.le_cap hfull)
        exact ⟨e, by rw [List.foldlM_cons, he, error_bind]⟩

/-- **The pigeonhole bound.** A non-empty list with at most `d` distinct values has a value
that occurs at least `⌊n / d⌋` times, `n` its length. -/
lemma exists_count_ge (xs : List α) {d : ℕ} (hd : xs.toFinset.card ≤ d) (hxs : xs ≠ []) :
    ∃ a ∈ xs, xs.length / d ≤ xs.count a := by
  by_contra hno
  simp only [not_exists, not_and, not_le] at hno
  -- every count below the share would make the counts sum to less than the length
  have hlt : ∑ a ∈ xs.toFinset, xs.count a < ∑ _a ∈ xs.toFinset, xs.length / d :=
    Finset.sum_lt_sum_of_nonempty ((List.toFinset_nonempty_iff xs).mpr hxs)
      fun a ha => hno a (List.mem_toFinset.mp ha)
  rw [List.sum_toFinset_count_eq_length, Finset.sum_const, smul_eq_mul] at hlt
  have hshare : xs.toFinset.card * (xs.length / d) ≤ d * (xs.length / d) :=
    Nat.mul_le_mul_right _ hd
  have hdiv : d * (xs.length / d) ≤ xs.length := Nat.mul_div_le _ _
  omega

end FreqTable
