import Mathlib.Data.List.Basic
import Mathlib.Data.Int.Notation

set_option autoImplicit false

/-!
# C arrays with checked accesses

A C array of `n` entries is a list of length `n`. Every access of the modelled code goes
through one of the checked operations below, which return the C result when the index lies
inside the array and a `CArray.Fault` otherwise: a run of a model that never faults never
touched memory outside its arrays. Indices are integers, as the signed loop variables of
C code are, so that a negative index is a fault rather than a truncation.

A call `f(a + lo, hi - lo)` that hands a callee the part `a[lo..hi)` of an array is
`CArray.slice a lo hi`: a fault unless `0 ≤ lo ≤ hi ≤ n`.

The second half of the file is the arithmetic of windows `(a.take hi).drop lo` under the
exchange of two entries (`CArray.exch`): how counts of a predicate in a window change when
entries are exchanged inside it, outside it, or when the window grows by one.

## Main definitions

* `CArray.Fault` — why a run of a model stopped without a result.
* `CArray.get`, `CArray.swap`, `CArray.slice` — checked `a[i]`, `_swap(a[i], a[j])` and
  `(a + lo, hi - lo)`.
* `CArray.exch` — the exchange of two entries, the effect of a successful `swap`.

## Main results

* `CArray.exch_perm` — an exchange permutes the array.
* `CArray.take_exch_perm`, `CArray.take_exch_of_le` — an exchange inside a prefix permutes
  the prefix; one behind it leaves it unchanged.
* `CArray.countP_take_succ`, `CArray.countP_window` — counting in growing prefixes and in
  windows.
-/

namespace CArray

/-- Why a run of a model stopped without a result: an index outside its array, a window
that is not a part of its array, or a loop that ran out of fuel. -/
inductive Fault where
  | outOfBounds (idx : ℤ) (size : ℕ)
  | badWindow (lo hi : ℤ) (size : ℕ)
  | outOfFuel
  deriving DecidableEq, Repr

universe u v

variable {α : Type u}

@[simp] lemma ok_bind {β : Type u} {ε : Type v} (a : α) (f : α → Except ε β) :
    (Except.ok a : Except ε α) >>= f = f a := rfl

@[simp] lemma error_bind {β : Type u} {ε : Type v} (e : ε) (f : α → Except ε β) :
    (Except.error e : Except ε α) >>= f = .error e := rfl

@[simp] lemma pure_eq_ok {ε : Type v} (a : α) : (pure a : Except ε α) = .ok a := rfl

lemma bind_eq_ok {β : Type u} {ε : Type v} {m : Except ε α} {f : α → Except ε β} {b : β}
    (h : m >>= f = .ok b) : ∃ a, m = .ok a ∧ f a = .ok b := by
  cases m with
  | error e => cases h
  | ok a => exact ⟨a, rfl, h⟩

/-- The last step of a loop over `0, …, n`. -/
lemma foldl_range_succ {β : Type u} (f : β → ℕ → β) (b : β) (n : ℕ) :
    (List.range (n + 1)).foldl f b = f ((List.range n).foldl f b) n := by
  rw [List.range_succ, List.foldl_append, List.foldl_cons, List.foldl_nil]

/-- The last step of a checked loop over `0, …, n` whose first `n` steps succeed. -/
lemma foldlM_range_succ_of_ok {β : Type u} {ε : Type v} (f : β → ℕ → Except ε β) {n : ℕ} {b b' : β}
    (h : (List.range n).foldlM f b = .ok b') : (List.range (n + 1)).foldlM f b = f b' n := by
  rw [List.range_succ, List.foldlM_append, h, ok_bind]
  simp only [List.foldlM_cons, List.foldlM_nil, bind_pure]

/-! ## Checked accesses -/

/-- `a[i]`, a fault unless `0 ≤ i < n`. -/
def get (a : List α) (i : ℤ) : Except Fault α :=
  if h : 0 ≤ i ∧ i.toNat < a.length then .ok (a.get ⟨i.toNat, h.2⟩)
  else .error (.outOfBounds i a.length)

/-- The exchange of entries `i` and `j` (no change when either is outside the array). -/
def exch (a : List α) (i j : ℕ) : List α :=
  if h : i < a.length ∧ j < a.length then (a.set i (a.get ⟨j, h.2⟩)).set j (a.get ⟨i, h.1⟩)
  else a

/-- `_swap(a[i], a[j])` of `utils.h`: read both entries, write each into the other's place;
a fault unless both indices lie inside the array. -/
def swap (a : List α) (i j : ℤ) : Except Fault (List α) := do
  let _ ← get a i
  let _ ← get a j
  pure (exch a i.toNat j.toNat)

/-- `a[i] = x`, a fault unless `0 ≤ i < n`. -/
def set (a : List α) (i : ℤ) (x : α) : Except Fault (List α) := do
  let _ ← get a i
  pure (a.set i.toNat x)

/-- `memcpy(dst, src, k * sizeof(*src))`, a fault unless both arrays have `k` entries. -/
def copy (dst src : List α) (k : ℕ) : Except Fault (List α) :=
  if k ≤ dst.length ∧ k ≤ src.length then .ok (src.take k ++ dst.drop k)
  else .error (.badWindow 0 k dst.length)

/-- The part `a[lo..hi)` handed to a callee as `(a + lo, hi - lo)`, a fault unless
`0 ≤ lo ≤ hi ≤ n`. -/
def slice (a : List α) (lo hi : ℤ) : Except Fault (List α) :=
  if 0 ≤ lo ∧ lo ≤ hi ∧ hi ≤ a.length then .ok ((a.take hi.toNat).drop lo.toNat)
  else .error (.badWindow lo hi a.length)

lemma get_of_lt {a : List α} {i : ℕ} (h : i < a.length) : get a i = .ok a[i] := by
  simp [get, h]

lemma swap_of_lt {a : List α} {i j : ℕ} (hi : i < a.length) (hj : j < a.length) :
    swap a i j = .ok (exch a i j) := by
  simp [swap, get_of_lt hi, get_of_lt hj]

lemma set_of_lt {a : List α} {i : ℕ} (h : i < a.length) (x : α) :
    set a i x = .ok (a.set i x) := by
  simp [set, get_of_lt h]

lemma copy_of_le {dst src : List α} {k : ℕ} (h₁ : k ≤ dst.length) (h₂ : k ≤ src.length) :
    copy dst src k = .ok (src.take k ++ dst.drop k) := by
  simp [copy, h₁, h₂]

lemma slice_of_le {a : List α} {lo hi : ℕ} (h₁ : lo ≤ hi) (h₂ : hi ≤ a.length) :
    slice a lo hi = .ok ((a.take hi).drop lo) := by
  simp [slice, h₁, h₂]

lemma slice_zero_of_le {a : List α} {hi : ℕ} (h : hi ≤ a.length) :
    slice a 0 hi = .ok (a.take hi) := by
  simp [slice, h]

lemma slice_of_int {a : List α} {lo hi : ℤ} (h₀ : 0 ≤ lo) (h₁ : lo ≤ hi)
    (h₂ : hi ≤ a.length) : slice a lo hi = .ok ((a.take hi.toNat).drop lo.toNat) := by
  simp [slice, h₀, h₁, h₂]

lemma swap_of_int {a : List α} {i j : ℤ} (hi₀ : 0 ≤ i) (hi : i < a.length) (hj₀ : 0 ≤ j)
    (hj : j < a.length) : swap a i j = .ok (exch a i.toNat j.toNat) := by
  obtain ⟨n, rfl⟩ := Int.eq_ofNat_of_zero_le hi₀
  obtain ⟨m, rfl⟩ := Int.eq_ofNat_of_zero_le hj₀
  rw [swap_of_lt (by omega) (by omega)]
  simp

lemma get_eq_ok {a : List α} {i : ℤ} {x : α} (h : get a i = .ok x) :
    ∃ k : ℕ, ∃ hk : k < a.length, i = k ∧ a[k] = x := by
  unfold get at h
  split at h
  · rename_i hb
    refine ⟨i.toNat, hb.2, by omega, ?_⟩
    simpa using Except.ok.inj h
  · cases h

lemma swap_eq_ok {a b : List α} {i j : ℤ} (h : swap a i j = .ok b) :
    ∃ i' j' : ℕ, i' < a.length ∧ j' < a.length ∧ i = i' ∧ j = j' ∧ b = exch a i' j' := by
  obtain ⟨x, hx, h⟩ := bind_eq_ok h
  obtain ⟨y, hy, h⟩ := bind_eq_ok h
  obtain ⟨i', hi', rfl, -⟩ := get_eq_ok hx
  obtain ⟨j', hj', rfl, -⟩ := get_eq_ok hy
  exact ⟨i', j', hi', hj', rfl, rfl, (Except.ok.inj h).symm⟩

lemma copy_eq_ok {dst src b : List α} {k : ℕ} (h : copy dst src k = .ok b) :
    k ≤ dst.length ∧ k ≤ src.length ∧ b = src.take k ++ dst.drop k := by
  unfold copy at h
  split at h
  · rename_i hk
    cases h
    exact ⟨hk.1, hk.2, rfl⟩
  · cases h

lemma slice_eq_ok {a w : List α} {lo hi : ℤ} (h : slice a lo hi = .ok w) :
    ∃ lo' hi' : ℕ, lo' ≤ hi' ∧ hi' ≤ a.length ∧ lo = lo' ∧ hi = hi' ∧
      w = (a.take hi').drop lo' := by
  unfold slice at h
  split at h
  · rename_i hb
    refine ⟨lo.toNat, hi.toNat, by omega, by omega, by omega, by omega, ?_⟩
    exact (Except.ok.inj h).symm
  · cases h

/-! ## Exchanges -/

@[simp] lemma length_exch (a : List α) (i j : ℕ) : (exch a i j).length = a.length := by
  unfold exch
  split <;> simp

lemma getElem?_exch (a : List α) {i j : ℕ} (hi : i < a.length) (hj : j < a.length) (k : ℕ) :
    (exch a i j)[k]? = if k = j then a[i]? else if k = i then a[j]? else a[k]? := by
  simp only [exch, hi, hj, and_self, dite_true, List.getElem?_set]
  by_cases hkj : k = j
  · simp [hkj, hj, hi]
  · by_cases hki : k = i
    · subst hki; simp [Ne.symm hkj, hkj, hj]
    · simp [Ne.symm hkj, Ne.symm hki, hkj, hki]

/-- An exchange permutes the array. -/
lemma exch_perm (a : List α) (i j : ℕ) : (exch a i j).Perm a := by
  unfold exch
  split
  · rename_i h
    exact List.set_set_perm h.1 h.2
  · exact List.Perm.refl a

lemma exch_self (a : List α) (i : ℕ) : exch a i i = a := by
  unfold exch
  split
  · rename_i h
    simp
  · rfl

/-- An exchange of two entries behind a prefix leaves the prefix unchanged. -/
lemma take_exch_of_le (a : List α) {n i j : ℕ} (hi : n ≤ i) (hj : n ≤ j) :
    (exch a i j).take n = a.take n := by
  unfold exch
  split
  · rw [List.take_set_of_le hj, List.take_set_of_le hi]
  · rfl

/-- An exchange inside a prefix leaves what follows the prefix unchanged. -/
lemma drop_exch_of_lt (a : List α) {n i j : ℕ} (hi : i < n) (hj : j < n) :
    (exch a i j).drop n = a.drop n := by
  unfold exch
  split
  · rw [List.drop_set_of_lt hj, List.drop_set_of_lt hi]
  · rfl

/-- An exchange inside a prefix permutes the prefix. -/
lemma take_exch_perm (a : List α) {n i j : ℕ} (hi : i < n) (hj : j < n) :
    ((exch a i j).take n).Perm (a.take n) := by
  have hdrop := drop_exch_of_lt a hi hj
  have hp : ((exch a i j).take n ++ (exch a i j).drop n).Perm (a.take n ++ a.drop n) := by
    simpa only [List.take_append_drop] using exch_perm a i j
  rw [hdrop] at hp
  exact (List.perm_append_right_iff _).mp hp

/-- Swapping a later line into slot `i` appends it to the prefix `a[0..i)`. -/
lemma take_exch_succ (a : List α) {i j : ℕ} (hij : i ≤ j) (hj : j < a.length) :
    (exch a i j).take (i + 1) = a.take i ++ [a[j]] := by
  have hi : i < a.length := by omega
  have hget : (exch a i j)[i]? = some a[j] := by
    rw [getElem?_exch a hi hj]
    by_cases h : i = j
    · subst h
      simp
    · simp [h]
  rw [List.take_add_one, hget, take_exch_of_le a (Nat.le_refl i) hij]
  rfl

/-- Two lists that agree up to `n` agree up to every `m ≤ n`. -/
lemma take_eq_take_of_le {a b : List α} {m n : ℕ} (h : a.take n = b.take n) (hm : m ≤ n) :
    a.take m = b.take m := by
  rw [← Nat.min_eq_left hm, ← List.take_take, h, List.take_take]

lemma getElem_mem_take (a : List α) {i n : ℕ} (hi : i < n) (hl : i < a.length) :
    a[i] ∈ a.take n :=
  List.mem_take_iff_getElem.mpr ⟨i, by omega, rfl⟩

/-! ## Permutations of a prefix -/

/-- `a` is `b` with its first `n` entries permuted and the rest unchanged: what a run of
exchanges inside `[0, n)` leaves behind. -/
def PermOn (n : ℕ) (a b : List α) : Prop :=
  a.length = b.length ∧ (a.take n).Perm (b.take n) ∧ a.drop n = b.drop n

namespace PermOn

variable {n : ℕ} {a b c : List α}

@[refl] lemma refl (n : ℕ) (a : List α) : PermOn n a a := ⟨rfl, List.Perm.refl _, rfl⟩

lemma symm (h : PermOn n a b) : PermOn n b a := ⟨h.1.symm, h.2.1.symm, h.2.2.symm⟩

lemma trans (h₁ : PermOn n a b) (h₂ : PermOn n b c) : PermOn n a c :=
  ⟨h₁.1.trans h₂.1, h₁.2.1.trans h₂.2.1, h₁.2.2.trans h₂.2.2⟩

/-- A permutation of a prefix is one of every longer prefix. -/
lemma mono {m : ℕ} (h : PermOn n a b) (hnm : n ≤ m) : PermOn m a b := by
  obtain ⟨hl, hp, hd⟩ := h
  have split : ∀ l : List α, l.take m = l.take n ++ (l.drop n).take (m - n) := by
    intro l
    rw [← List.take_add, Nat.add_sub_cancel' hnm]
  refine ⟨hl, ?_, ?_⟩
  · rw [split a, split b, hd]
    exact hp.append_right _
  · have e : ∀ l : List α, l.drop m = (l.drop n).drop (m - n) := by
      intro l
      rw [List.drop_drop, Nat.add_sub_cancel' hnm]
    rw [e a, e b, hd]

/-- The whole array is a permutation of the original one. -/
lemma perm (h : PermOn n a b) : a.Perm b := by
  rw [← List.take_append_drop n a, ← List.take_append_drop n b, h.2.2]
  exact h.2.1.append_right _

lemma exch_left (h : PermOn n a b) {i j : ℕ} (hi : i < n) (hj : j < n) :
    PermOn n (exch a i j) b :=
  trans ⟨length_exch a i j, take_exch_perm a hi hj, drop_exch_of_lt a hi hj⟩ h

end PermOn

/-! ## Stable compaction -/

/-- One pass `if (keep(i)) { _swap(a[n], a[s + i]); n += 1; }` of the in-place compaction of
the window `a[s..s + c)` to the front `a[n..)`. -/
def keepStep (keep : ℕ → Bool) (s : ℕ) (acc : List α × ℕ) (i : ℕ) :
    Except Fault (List α × ℕ) :=
  if keep i then do
    let a ← swap acc.1 acc.2 (s + i : ℕ)
    pure (a, acc.2 + 1)
  else pure acc

/-- The entries of the window `a[s..s + c)` that `keep` selects, in order. -/
def kept (keep : ℕ → Bool) (a : List α) (s c : ℕ) : List α :=
  (List.range c).filterMap fun i => if keep i then a[s + i]? else none

lemma kept_succ (keep : ℕ → Bool) (a : List α) (s c : ℕ) :
    kept keep a s (c + 1) = kept keep a s c ++ if keep c then a[s + c]?.toList else [] := by
  rw [kept, List.range_succ, List.filterMap_append, ← kept]
  congr 1
  by_cases h : keep c
  · simp only [List.filterMap_cons, List.filterMap_nil, h, if_true]
    cases a[s + c]? <;> rfl
  · simp [h]

lemma length_kept_le (keep : ℕ → Bool) (a : List α) (s c : ℕ) : (kept keep a s c).length ≤ c := by
  have h := List.length_filterMap_le (fun i => if keep i then a[s + i]? else none) (List.range c)
  rwa [List.length_range] at h

/-- The window of a slice: what `keep` selects in `a[s..s + c)` is what it selects in the part
`slice a s (s + c)` hands on. -/
lemma kept_take_drop (keep : ℕ → Bool) (a : List α) (s c : ℕ) :
    kept keep a s c = kept keep ((a.take (s + c)).drop s) 0 c := by
  unfold kept
  refine List.filterMap_congr fun i hi => ?_
  have hi' : i < c := List.mem_range.mp hi
  rw [List.getElem?_drop, List.getElem?_take_of_lt (by omega), Nat.zero_add]

lemma kept_cons (keep : ℕ → Bool) (x : α) (a : List α) :
    kept keep (x :: a) 0 (a.length + 1) =
      (if keep 0 then [x] else []) ++ kept (fun i => keep (i + 1)) a 0 a.length := by
  unfold kept
  rw [List.range_succ_eq_map, List.filterMap_cons, List.filterMap_map]
  by_cases h : keep 0 <;> simp [h]

/-- What `keep` selects by position is what `p` selects by entry. -/
lemma kept_eq_filter (p : α → Bool) :
    ∀ (a : List α) (keep : ℕ → Bool), (∀ i (hi : i < a.length), keep i = p a[i]) →
      kept keep a 0 a.length = a.filter p
  | [], _, _ => by simp [kept]
  | x :: a, keep, h => by
    have h0 : keep 0 = p x := h 0 (by simp)
    rw [List.length_cons, kept_cons, kept_eq_filter p a _ fun i hi => h (i + 1) (by simpa),
      List.filter_cons, h0]
    split <;> simp

/-- **Stable compaction.** From `n ≤ s`, the passes `i < c` of `keepStep keep s` move the
entries of the window `a[s..s + c)` that `keep` selects, in order, behind `a[0..n)`, and only
permute `a[0..s + c)`.

**Proof sketch.** Induction on `c`. The front position `n + k` stays at most `s + c`, and
the entries from `s + c` on are untouched, so the pass `c` swaps the original `a[s + c]` into
the front. -/
lemma foldlM_keepStep (keep : ℕ → Bool) {s : ℕ} :
    ∀ (c : ℕ) {a : List α} {n : ℕ}, n ≤ s → s + c ≤ a.length →
      ∃ a', (List.range c).foldlM (keepStep keep s) (a, n) =
          .ok (a', n + (kept keep a s c).length) ∧
        a'.take (n + (kept keep a s c).length) = a.take n ++ kept keep a s c ∧
        PermOn (s + c) a' a
  | 0, a, n, _, _ => ⟨a, by simp [kept], by simp [kept], PermOn.refl _ _⟩
  | c + 1, a, n, hn, hc => by
    have hc' : s + c ≤ a.length := by omega
    obtain ⟨a', hrun, hfront, hperm⟩ := foldlM_keepStep keep c hn hc'
    have hk := length_kept_le keep a s c
    have hlen : a'.length = a.length := hperm.1
    -- the window entry `s + c` has not moved yet
    have hget : a'[s + c]? = a[s + c]? := by
      rw [← Nat.add_zero (s + c), ← List.getElem?_drop, hperm.2.2, List.getElem?_drop]
    have hsc : s + c < a'.length := by omega
    rw [foldlM_range_succ_of_ok _ hrun, kept_succ]
    unfold keepStep
    by_cases hkeep : keep c
    · have hn' : n + (kept keep a s c).length < a'.length := by omega
      have hx : a'[s + c] = a[s + c] := by
        rw [List.getElem?_eq_getElem hsc, List.getElem?_eq_getElem (by omega)] at hget
        exact Option.some.inj hget
      simp only [hkeep, if_true, swap_of_lt hn' hsc, ok_bind, pure_eq_ok,
        List.getElem?_eq_getElem (show s + c < a.length by omega), Option.toList_some,
        List.length_append, List.length_singleton, ← Nat.add_assoc]
      refine ⟨exch a' (n + (kept keep a s c).length) (s + c), rfl, ?_, ?_⟩
      · rw [take_exch_succ _ (by omega) hsc, hfront, List.append_assoc, hx]
      · exact (hperm.mono (by omega)).exch_left (by omega) (by omega)
    · simp only [hkeep, Bool.false_eq_true, if_false, List.append_nil, pure_eq_ok]
      exact ⟨a', rfl, hfront, hperm.mono (by omega)⟩

/-! ## Counting in prefixes and windows -/

variable (p : α → Bool)

lemma countP_take_succ (a : List α) {n : ℕ} (hn : n < a.length) :
    (a.take (n + 1)).countP p = (a.take n).countP p + if p a[n] then 1 else 0 := by
  rw [List.take_add_one, List.getElem?_eq_getElem hn, List.countP_append]
  simp

lemma countP_take_mono (a : List α) {m n : ℕ} (h : m ≤ n) :
    (a.take m).countP p ≤ (a.take n).countP p := by
  have : a.take m = (a.take n).take m := by simp [List.take_take, Nat.min_eq_left h]
  rw [this]
  exact List.Sublist.countP_le (List.take_sublist _ _)

/-- Exchanging entry `i` of the prefix `a[0..n]` with its last entry and dropping that entry
takes exactly `a[i]` out of the prefix's count. -/
lemma countP_take_exch_last (a : List α) {i n : ℕ} (hi : i ≤ n) (hn : n < a.length) :
    ((exch a i n).take n).countP p + (if p a[i] then 1 else 0) = (a.take (n + 1)).countP p := by
  have hperm := take_exch_perm a (show i < n + 1 by omega) (show n < n + 1 by omega)
  have hlast : (exch a i n)[n]? = a[i]? := by
    rw [getElem?_exch a (by omega) hn]
    simp
  have hlen : n < (exch a i n).length := by simpa using hn
  rw [← hperm.countP_eq, countP_take_succ p _ hlen]
  have : (exch a i n)[n] = a[i] := by
    rw [List.getElem?_eq_getElem hlen, List.getElem?_eq_getElem (by omega)] at hlast
    exact Option.some.inj hlast
  rw [this]

/-- Overwriting entry `i` of the prefix `a[0..n)` with `x` trades `a[i]` for `x` in the
prefix's count. -/
lemma countP_take_set (a : List α) {i n : ℕ} (hi : i < n) (hn : n ≤ a.length) (x : α) :
    ((a.set i x).take n).countP p + (if p a[i] then 1 else 0) =
      (a.take n).countP p + if p x then 1 else 0 := by
  have hlen : i < (a.take n).length := by simp; omega
  have hget : (a.take n)[i] = a[i] := List.getElem_take
  have hmem : (if p a[i] then 1 else 0) ≤ (a.take n).countP p := by
    split
    · rename_i hp
      exact List.countP_pos_iff.mpr ⟨a[i], hget ▸ List.getElem_mem hlen, hp⟩
    · exact Nat.zero_le _
  rw [List.take_set, List.countP_set hlen, hget]
  omega

/-- A window `a[lo..hi)` holds what the prefix of length `hi` holds beyond the prefix of
length `lo`. -/
lemma countP_window (a : List α) {lo hi : ℕ} (h : lo ≤ hi) :
    ((a.take hi).drop lo).countP p + (a.take lo).countP p = (a.take hi).countP p := by
  have e : a.take lo = (a.take hi).take lo := by simp [List.take_take, Nat.min_eq_left h]
  rw [e, Nat.add_comm, ← List.countP_append, List.take_append_drop]

end CArray
