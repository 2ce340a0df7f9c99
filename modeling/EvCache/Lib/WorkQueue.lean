import EvCache.Lib.Interleave

set_option autoImplicit false

/-!
# Work handed out by an atomic counter

Workers share a store and a counter. A worker about to take work claims the next item with an
atomic fetch-and-add on the counter: it works on the item it got if that item is below the
number `N` of items and leaves its loop otherwise. The work on item `c` is a list of atomic
steps `work c` (`EvCache.Lib.Interleave`), taken one at a time, interleaved in any order with
the steps of the other workers; when it is done the worker claims again. A worker may also
leave its loop early, after a step of its item (a timeout), leaving the rest of the item undone.

When the steps of distinct items touch disjoint parts of the store, the counter is all the
synchronisation there is, and it is enough: in every reachable state no two workers hold the
same item, every item claimed has had a prefix of its work done, as the item run alone on the
initial store would do it, the whole of it unless a worker holds it or left early on it, and
the items above the counter are untouched. So once every worker has found the items exhausted,
every item has been done exactly once. A tally of the local states, such as a counter of
results each worker keeps, adds up over all workers to what the items have added to it.

## Main definitions

* `WorkQueue.Pc` — where a worker is in its loop.
* `WorkQueue.Sys` — the workers, the counter and the store, with the record of the claims and
  the progress of each item.
* `WorkQueue.step`, `WorkQueue.run` — one event, and a schedule of events.
* `WorkQueue.Inv` — the invariant of every reachable state.
* `WorkQueue.gains` — what the claimed items have added to a tally of the local states.

## Main results

* `WorkQueue.Inv.step` — every event keeps the invariant; `WorkQueue.run_inv` — so does every
  schedule, from the start.
* `WorkQueue.run_busy_unique` — no two workers ever hold the same item.
* `WorkQueue.run_store_of_exhausted` — once every worker has found the items exhausted, each
  item has been done whole, once, from the initial store; `WorkQueue.run_store_of_done` — the
  same once every worker has left its loop, when none may leave early.
* `WorkQueue.run_tally` — the tallies of the workers add up to the gains of the items.
* `WorkQueue.run_good` — a property of local states that every step keeps holds of every
  worker and of every claim.

## Model

The record of the claims and the progress of the items are ghosts: entry `c` of the record says
which worker got item `c` and with what local state, and `prog c` counts the steps taken on
item `c`. No step reads them; they name what the invariant speaks of.
-/

namespace WorkQueue

open Interleave

/-- Where a worker is: about to claim an item, at step `k` of item `c`, or out of its loop,
having left item `c` unfinished (`some c`) or having found no item left (`none`). -/
inductive Pc where
  | claim
  | busy (c k : ℕ)
  | done (abandoned : Option ℕ)
  deriving DecidableEq, Repr

/-- The workers `ι`, each with its position and its local state, the counter `next`, the store,
the record of the claims and the steps taken on each item. -/
structure Sys (ι L κ V : Type*) where
  pc : ι → Pc
  loc : ι → L
  next : ℕ
  store : κ → V
  claims : List (ι × L)
  prog : ℕ → ℕ

/-- What a schedule lets happen next: a worker takes a step, or a worker leaves early. -/
inductive Event (ι : Type*) where
  | step (i : ι)
  | stop (i : ι)
  deriving DecidableEq, Repr

variable {ι L κ V : Type*}

section Run

variable [DecidableEq ι] (N : ℕ) (work : ℕ → List (Step L κ V)) (may_stop : Bool)

/-- One event. A worker about to claim takes the counter's value and increments it, and starts
on that item if it is below `N`; a busy worker takes the next step of its item, or claims again
when the item is done. A worker that has done a step of its item may leave when `may_stop`
holds. A worker out of its loop takes no step. -/
def step (s : Sys ι L κ V) : Event ι → Sys ι L κ V
  | .step i =>
    match s.pc i with
    | .claim =>
      { s with
        pc := Function.update s.pc i (if s.next < N then .busy s.next 0 else .done none)
        next := s.next + 1
        claims := s.claims ++ [(i, s.loc i)] }
    | .busy c k =>
      match (work c)[k]? with
      | some f =>
        { s with
          pc := Function.update s.pc i (.busy c (k + 1))
          loc := Function.update s.loc i (f (s.loc i) s.store).1
          store := (f (s.loc i) s.store).2
          prog := Function.update s.prog c (k + 1) }
      | none => { s with pc := Function.update s.pc i .claim }
    | .done _ => s
  | .stop i =>
    match s.pc i with
    | .busy c (_ + 1) =>
      if may_stop then { s with pc := Function.update s.pc i (.done (some c)) } else s
    | _ => s

/-- The events of a schedule, in order. -/
def run (s : Sys ι L κ V) (evs : List (Event ι)) : Sys ι L κ V := evs.foldl (step N work may_stop) s

@[simp] lemma run_nil (s : Sys ι L κ V) : run N work may_stop s [] = s := rfl

@[simp] lemma run_cons (s : Sys ι L κ V) (e : Event ι) (evs : List (Event ι)) :
    run N work may_stop s (e :: evs) = run N work may_stop (step N work may_stop s e) evs := rfl

lemma run_append (s : Sys ι L κ V) (evs₁ evs₂ : List (Event ι)) :
    run N work may_stop s (evs₁ ++ evs₂) =
      run N work may_stop (run N work may_stop s evs₁) evs₂ :=
  List.foldl_append

/-- **What one event can do**: nothing; a claim by a worker about to claim; the next step of a
busy worker's item; or a busy worker leaving its item, back to claim when the item is done or out
of its loop when it may stop after a step. -/
lemma step_cases (s : Sys ι L κ V) (e : Event ι) :
    step N work may_stop s e = s ∨
      (∃ i, s.pc i = .claim ∧ step N work may_stop s e =
        { s with
          pc := Function.update s.pc i (if s.next < N then .busy s.next 0 else .done none)
          next := s.next + 1
          claims := s.claims ++ [(i, s.loc i)] }) ∨
      (∃ i c k f, s.pc i = .busy c k ∧ (work c)[k]? = some f ∧ step N work may_stop s e =
        { s with
          pc := Function.update s.pc i (.busy c (k + 1))
          loc := Function.update s.loc i (f (s.loc i) s.store).1
          store := (f (s.loc i) s.store).2
          prog := Function.update s.prog c (k + 1) }) ∨
      (∃ i c k p, s.pc i = .busy c k ∧
        (p = .claim ∧ (work c)[k]? = none ∨ may_stop = true ∧ 0 < k ∧ p = .done (some c)) ∧
        step N work may_stop s e = { s with pc := Function.update s.pc i p }) := by
  cases e with
  | step i =>
    cases hpc : s.pc i with
    | claim => exact .inr (.inl ⟨i, hpc, by simp only [step, hpc]⟩)
    | busy c k =>
      cases hf : (work c)[k]? with
      | some f => exact .inr (.inr (.inl ⟨i, c, k, f, hpc, hf, by simp only [step, hpc, hf]⟩))
      | none =>
        exact .inr (.inr (.inr ⟨i, c, k, .claim, hpc, .inl ⟨rfl, hf⟩, by simp only [step, hpc, hf]⟩))
    | done a => exact .inl (by simp only [step, hpc])
  | stop i =>
    cases hpc : s.pc i with
    | busy c k =>
      cases k with
      | zero => exact .inl (by simp only [step, hpc])
      | succ k =>
        cases may_stop with
        | true =>
          exact .inr (.inr (.inr ⟨i, c, k + 1, .done (some c), hpc, .inr ⟨rfl, k.succ_pos, rfl⟩,
            by simp only [step, hpc, if_true]⟩))
        | false => exact .inl (by simp only [step, hpc, Bool.false_eq_true, if_false])
    | claim => exact .inl (by simp only [step, hpc])
    | done a => exact .inl (by simp only [step, hpc])

/-- A step that may not leave early leaves no item unfinished. -/
lemma step_pc_ne_abandoned {s : Sys ι L κ V} (hs : ∀ i c, s.pc i ≠ .done (some c))
    (e : Event ι) (j : ι) (c : ℕ) : (step N work false s e).pc j ≠ .done (some c) := by
  rcases step_cases N work false s e with heq | ⟨i, -, heq⟩ | ⟨i, d, k, f, -, -, heq⟩ |
      ⟨i, d, k, p, -, hp, heq⟩ <;> rw [heq]
  · exact hs j c
  all_goals
    dsimp only
    rw [Function.update_apply]
  · split_ifs <;> first | exact hs j c | exact nofun
  · split_ifs <;> first | exact hs j c | exact nofun
  · obtain ⟨rfl, -⟩ | ⟨hstop, -⟩ := hp
    · split_ifs <;> first | exact hs j c | exact nofun
    · cases hstop

lemma run_pc_ne_abandoned {s : Sys ι L κ V} (hs : ∀ i c, s.pc i ≠ .done (some c))
    (evs : List (Event ι)) (j : ι) (c : ℕ) : (run N work false s evs).pc j ≠ .done (some c) := by
  induction evs generalizing s with
  | nil => exact hs j c
  | cons e evs ih => exact ih (step_pc_ne_abandoned N work hs e)

end Run

/-- The start: every worker about to claim, with the local states `loc`, the counter at `0`, on
the store `store`. -/
def init (loc : ι → L) (store : κ → V) : Sys ι L κ V :=
  ⟨fun _ => .claim, loc, 0, store, [], fun _ => 0⟩

/-! ## The invariant -/

section Invariant

variable (N : ℕ) (work : ℕ → List (Step L κ V)) (F : ℕ → Set κ) (store₀ : κ → V)

/-- What holds in every reachable state from the store `store₀`, the steps of item `c` touching
the cells `F c`. The counter has handed out as many items as it counts. Every item below `N`
and the counter was claimed, has had `prog c` steps of its work done, and holds in its cells what
that prefix computes run alone from the initial store and the local state at the claim. A busy
worker is at the step its item has reached, and holds in its local state what the prefix
computes. An item that no one holds has been done whole unless its worker left early on it.
Items not claimed have no progress and untouched cells, cells of no item are untouched, and a
worker that found the items exhausted saw the counter at `N` or above. -/
structure Inv (s : Sys ι L κ V) : Prop where
  claims_length : s.claims.length = s.next
  claimed : ∀ c < N, c < s.next → ∃ i l₀, s.claims[c]? = some (i, l₀) ∧
    s.prog c ≤ (work c).length ∧
    ∀ x ∈ F c, s.store x = (runAlone ((work c).take (s.prog c)) l₀ store₀).2 x
  busy : ∀ i c k, s.pc i = .busy c k → c < N ∧ s.prog c = k ∧
    ∃ l₀, s.claims[c]? = some (i, l₀) ∧ s.loc i = (runAlone ((work c).take k) l₀ store₀).1
  idle : ∀ c < N, c < s.next → (∀ i k, s.pc i ≠ .busy c k) →
    ∃ i l₀, s.claims[c]? = some (i, l₀) ∧
      (s.prog c = (work c).length ∨ 0 < s.prog c ∧ s.pc i = .done (some c))
  unstarted : ∀ c, s.next ≤ c ∨ N ≤ c → s.prog c = 0
  fresh : ∀ c < N, s.next ≤ c → ∀ x ∈ F c, s.store x = store₀ x
  outside : ∀ x, (∀ c < N, x ∉ F c) → s.store x = store₀ x
  exhausted : ∀ i, s.pc i = .done none → N ≤ s.next

variable {N work F store₀}

lemma Inv.init (loc : ι → L) : Inv N work F store₀ (init loc store₀) where
  claims_length := rfl
  claimed _ _ h := absurd h (Nat.not_lt_zero _)
  busy _ _ _ h := nomatch h
  idle _ _ h := absurd h (Nat.not_lt_zero _)
  unstarted _ _ := rfl
  fresh _ _ _ _ _ := rfl
  outside _ _ := rfl
  exhausted _ h := nomatch h

variable {s : Sys ι L κ V}

/-- An item of the record was claimed below the counter. -/
lemma Inv.lt_next (h : Inv N work F store₀ s) {c : ℕ} {p : ι × L} (hc : s.claims[c]? = some p) :
    c < s.next := by
  rw [← h.claims_length]
  exact (List.getElem?_eq_some_iff.mp hc).1

/-- No two workers hold the same item: the record names one claimer. -/
lemma Inv.busy_unique (h : Inv N work F store₀ s) {i j : ι} {c k k' : ℕ}
    (hi : s.pc i = .busy c k) (hj : s.pc j = .busy c k') : i = j := by
  obtain ⟨-, -, l₀, hcl, -⟩ := h.busy i c k hi
  obtain ⟨-, -, l₁, hcl', -⟩ := h.busy j c k' hj
  rw [hcl] at hcl'
  exact (Prod.mk.inj (Option.some.inj hcl')).1

variable [DecidableEq ι]

/-- No worker holds item `d` after worker `i` changes its position if no one else held it and
`i` did not hold it before. -/
lemma not_busy_of_update {pc : ι → Pc} {i : ι} {p : Pc} {d : ℕ}
    (hnb : ∀ j k, Function.update pc i p j ≠ .busy d k) (hi : ∀ k, pc i ≠ .busy d k) :
    ∀ j k, pc j ≠ .busy d k := by
  intro j k hj
  by_cases hji : j = i
  · subst hji
    exact hi k hj
  · exact hnb j k (by rwa [Function.update_of_ne hji])

/-- The record of an idle item survives a change of position of a worker still in its loop: the
worker that left early on the item is another one, and keeps its position. -/
lemma left_early_of_update {pc : ι → Pc} {i j : ι} {p : Pc} {c k n : ℕ}
    (hi : ∀ a, pc i ≠ .done a) (h : k = n ∨ 0 < k ∧ pc j = .done (some c)) :
    k = n ∨ 0 < k ∧ Function.update pc i p j = .done (some c) := by
  rcases h with h | ⟨hk, h⟩
  · exact .inl h
  · have hji : j ≠ i := by
      rintro rfl
      exact hi _ h
    exact .inr ⟨hk, by rwa [Function.update_of_ne hji]⟩

/-- **A claim keeps the invariant.** The new entry of the record is the counter's value; an
item it hands out is above every item touched so far, so it has no progress and its cells are
still the initial ones. -/
lemma Inv.claim (h : Inv N work F store₀ s) {i : ι} (hi : s.pc i = .claim) :
    Inv N work F store₀ { s with
      pc := Function.update s.pc i (if s.next < N then .busy s.next 0 else .done none)
      next := s.next + 1
      claims := s.claims ++ [(i, s.loc i)] } := by
  have hlen := h.claims_length
  have hold : ∀ c < s.next, (s.claims ++ [(i, s.loc i)])[c]? = s.claims[c]? := fun c hc =>
    List.getElem?_append_left (by omega)
  have hnew : (s.claims ++ [(i, s.loc i)])[s.next]? = some (i, s.loc i) := by
    rw [List.getElem?_append_right (by omega)]
    simp [hlen]
  have hprog : s.prog s.next = 0 := h.unstarted _ (.inl le_rfl)
  refine ⟨by simp [hlen], ?claimed, ?busy, ?idle, ?unstarted, ?fresh, h.outside, ?exhausted⟩
  case claimed =>
    intro c hc hcnext
    dsimp only at hcnext ⊢
    rcases Nat.lt_succ_iff_lt_or_eq.mp hcnext with hlt | rfl
    · obtain ⟨j, l₀, hcl, hp, hst⟩ := h.claimed c hc hlt
      exact ⟨j, l₀, by rw [hold c hlt, hcl], hp, hst⟩
    · refine ⟨i, s.loc i, hnew, by rw [hprog]; exact Nat.zero_le _, fun x hx => ?_⟩
      rw [hprog, List.take_zero, runAlone_nil]
      exact h.fresh _ hc le_rfl x hx
  case busy =>
    intro j c k hj
    dsimp only at hj ⊢
    by_cases hji : j = i
    · subst hji
      simp only [Function.update_self] at hj
      split_ifs at hj with hN
      cases hj
      exact ⟨hN, hprog, s.loc j, hnew, rfl⟩
    · rw [Function.update_of_ne hji] at hj
      obtain ⟨hc, hk, l₀, hcl, hloc⟩ := h.busy j c k hj
      exact ⟨hc, hk, l₀, by rw [hold c (h.lt_next hcl), hcl], hloc⟩
  case idle =>
    intro c hc hcnext hnb
    dsimp only at hcnext hnb ⊢
    -- the item the claim hands out is held, so an item no one holds is older
    have hlt : c < s.next := by
      rcases Nat.lt_succ_iff_lt_or_eq.mp hcnext with hlt | rfl
      · exact hlt
      · exact absurd (by simp [hc]) (hnb i 0)
    obtain ⟨j, l₀, hcl, hk⟩ :=
      h.idle c hc hlt (not_busy_of_update hnb fun k => by rw [hi]; exact nofun)
    exact ⟨j, l₀, by rw [hold c hlt, hcl],
      left_early_of_update (fun a => by rw [hi]; exact nofun) hk⟩
  case unstarted =>
    intro c hc
    exact h.unstarted c (hc.imp_left fun hc => by dsimp only at hc; omega)
  case fresh =>
    intro c hc hle x hx
    dsimp only at hle
    exact h.fresh c hc (by omega) x hx
  case exhausted =>
    intro j hj
    dsimp only at hj ⊢
    by_cases hji : j = i
    · subst hji
      simp only [Function.update_self] at hj
      split_ifs at hj with hN
      omega
    · exact Nat.le_succ_of_le (h.exhausted j (by rwa [Function.update_of_ne hji] at hj))

/-- **Leaving an item keeps the invariant.** A busy worker that goes back to claim or leaves its
loop early leaves no one on its item, which is done whole unless the worker left early on it. -/
lemma Inv.leave (h : Inv N work F store₀ s) {i : ι} {c k : ℕ} (hi : s.pc i = .busy c k)
    (p : Pc) (hp : ∀ d k', p ≠ .busy d k') (hpd : p ≠ .done none)
    (hfull : k = (work c).length ∨ 0 < k ∧ p = .done (some c)) :
    Inv N work F store₀ { s with pc := Function.update s.pc i p } := by
  obtain ⟨-, hk, l₀, hcl, -⟩ := h.busy i c k hi
  refine ⟨h.claims_length, h.claimed, ?busy, ?idle, h.unstarted, h.fresh, h.outside, ?exhausted⟩
  case busy =>
    intro j d k' hj
    dsimp only at hj
    by_cases hji : j = i
    · rw [hji, Function.update_self] at hj
      exact absurd hj (hp d k')
    · exact h.busy j d k' (by rwa [Function.update_of_ne hji] at hj)
  case idle =>
    intro d hd hdnext hnb
    dsimp only at hnb ⊢
    by_cases hdc : d = c
    · subst hdc
      exact ⟨i, l₀, hcl, by rwa [hk, Function.update_self]⟩
    · -- worker `i` was on item `c`, so no one held `d` before either
      have hid : ∀ k', s.pc i ≠ .busy d k' := fun k' hk' => by
        rw [hi] at hk'
        exact hdc (Pc.busy.inj hk').1.symm
      obtain ⟨j, l₁, hcl', hk'⟩ := h.idle d hd hdnext (not_busy_of_update hnb hid)
      exact ⟨j, l₁, hcl', left_early_of_update (fun a => by rw [hi]; exact nofun) hk'⟩
  case exhausted =>
    intro j hj
    dsimp only at hj
    by_cases hji : j = i
    · rw [hji, Function.update_self] at hj
      exact absurd hj hpd
    · exact h.exhausted j (by rwa [Function.update_of_ne hji] at hj)

section Confined

variable (hconf : ∀ c < N, ∀ f ∈ work c, Confined (F c) f)
include hconf

omit [DecidableEq ι] in
/-- **A step of work computes what the item run alone computes.** The step of item `c` sees the
cells of `c` as the item run alone would, so its local state and the cells it leaves are those
of one more step of the item alone. -/
lemma Inv.advance_run (h : Inv N work F store₀ s) {i : ι} {c k : ℕ} (hi : s.pc i = .busy c k)
    {f : Step L κ V} (hf : (work c)[k]? = some f) :
    ∃ l₀, s.claims[c]? = some (i, l₀) ∧
      (f (s.loc i) s.store).1 = (runAlone ((work c).take (k + 1)) l₀ store₀).1 ∧
      ∀ x ∈ F c, (f (s.loc i) s.store).2 x = (runAlone ((work c).take (k + 1)) l₀ store₀).2 x := by
  obtain ⟨hc, hk, l₀, hcl, hloc⟩ := h.busy i c k hi
  obtain ⟨j, l₁, hcl', -, hst⟩ := h.claimed c hc (h.lt_next hcl)
  obtain ⟨-, rfl⟩ := Prod.mk.inj (Option.some.inj (hcl.symm.trans hcl'))
  rw [hk] at hst
  have hreads := (hconf c hc f (List.mem_of_getElem? hf)).reads (s.loc i) s.store _ hst
  have hrun : runAlone ((work c).take (k + 1)) l₀ store₀ =
      f (runAlone ((work c).take k) l₀ store₀).1 (runAlone ((work c).take k) l₀ store₀).2 := by
    rw [List.take_add_one, hf, Option.toList_some, runAlone_append_singleton]
  refine ⟨l₀, hcl, ?_, fun x hx => ?_⟩
  · rw [hrun, hreads.1, hloc]
  · rw [hrun, hreads.2 x hx, hloc]

section Disjoint

variable (hdisj : ∀ c d, c < N → d < N → c ≠ d → Disjoint (F c) (F d))
include hdisj

/-- **A step of work keeps the invariant.** It does the next step of its item, as the item
alone would, and writes no cell of another item, held or not. -/
lemma Inv.advance (h : Inv N work F store₀ s) {i : ι} {c k : ℕ} (hi : s.pc i = .busy c k)
    {f : Step L κ V} (hf : (work c)[k]? = some f) :
    Inv N work F store₀ { s with
      pc := Function.update s.pc i (.busy c (k + 1))
      loc := Function.update s.loc i (f (s.loc i) s.store).1
      store := (f (s.loc i) s.store).2
      prog := Function.update s.prog c (k + 1) } := by
  obtain ⟨hc, -, -, -, -⟩ := h.busy i c k hi
  obtain ⟨l₀, hcl, hloc', hst'⟩ := h.advance_run hconf hi hf
  have hfc : Confined (F c) f := hconf c hc f (List.mem_of_getElem? hf)
  have hkl : k < (work c).length := (List.getElem?_eq_some_iff.mp hf).1
  -- the cells of every other item lie outside the footprint of `c`
  have hother : ∀ d < N, d ≠ c → ∀ x ∈ F d, (f (s.loc i) s.store).2 x = s.store x :=
    fun d hd hdc x hx => hfc.frame _ _ x (Set.disjoint_left.mp (hdisj d c hd hc hdc) hx)
  have hprog : ∀ d, d ≠ c → Function.update s.prog c (k + 1) d = s.prog d :=
    fun d hdc => Function.update_of_ne hdc _ _
  have hcnext : c < s.next := h.lt_next hcl
  refine ⟨h.claims_length, ?claimed, ?busy, ?idle, ?unstarted, ?fresh, ?outside, ?exhausted⟩
  case claimed =>
    intro d hd hdnext
    dsimp only
    by_cases hdc : d = c
    · subst hdc
      rw [Function.update_self]
      exact ⟨i, l₀, hcl, hkl, hst'⟩
    · obtain ⟨j, l₁, hcl₁, hp, hst₁⟩ := h.claimed d hd hdnext
      refine ⟨j, l₁, hcl₁, by rwa [hprog d hdc], fun x hx => ?_⟩
      rw [hprog d hdc, hother d hd hdc x hx, hst₁ x hx]
  case busy =>
    intro j d k' hj
    dsimp only at hj ⊢
    by_cases hji : j = i
    · subst hji
      rw [Function.update_self] at hj
      obtain ⟨rfl, rfl⟩ := Pc.busy.inj hj
      exact ⟨hc, Function.update_self _ _ _, l₀, hcl, by rw [Function.update_self, hloc']⟩
    · rw [Function.update_of_ne hji] at hj
      obtain ⟨hd, hk', l₁, hcl₁, hloc₁⟩ := h.busy j d k' hj
      have hdc : d ≠ c := fun hdc => hji (h.busy_unique (hdc ▸ hj) hi)
      exact ⟨hd, by rw [hprog d hdc, hk'], l₁, hcl₁, by rwa [Function.update_of_ne hji]⟩
  case idle =>
    intro d hd hdnext hnb
    dsimp only at hnb ⊢
    have hdc : d ≠ c := by
      rintro rfl
      exact hnb i (k + 1) (Function.update_self _ _ _)
    have hid : ∀ k', s.pc i ≠ .busy d k' := fun k' hk' => by
      rw [hi] at hk'
      exact hdc (Pc.busy.inj hk').1.symm
    obtain ⟨j, l₁, hcl₁, hk₁⟩ := h.idle d hd hdnext (not_busy_of_update hnb hid)
    exact ⟨j, l₁, hcl₁, by
      rw [hprog d hdc]
      exact left_early_of_update (fun a => by rw [hi]; exact nofun) hk₁⟩
  case unstarted =>
    intro d hd
    dsimp only at hd
    have hdc : d ≠ c := by
      rintro rfl
      omega
    dsimp only
    rw [hprog d hdc]
    exact h.unstarted d hd
  case fresh =>
    intro d hd hle x hx
    dsimp only at hle ⊢
    have hdc : d ≠ c := by
      rintro rfl
      omega
    rw [hother d hd hdc x hx]
    exact h.fresh d hd hle x hx
  case outside =>
    intro x hx
    dsimp only
    rw [hfc.frame _ _ x (hx c hc)]
    exact h.outside x hx
  case exhausted =>
    intro j hj
    dsimp only at hj
    have hji : j ≠ i := by
      rintro rfl
      rw [Function.update_self] at hj
      cases hj
    exact h.exhausted j (by rwa [Function.update_of_ne hji] at hj)

/-- **Every event keeps the invariant.** -/
lemma Inv.step (h : Inv N work F store₀ s) (may_stop : Bool) (e : Event ι) :
    Inv N work F store₀ (step N work may_stop s e) := by
  rcases step_cases N work may_stop s e with heq | ⟨i, hpc, heq⟩ | ⟨i, c, k, f, hpc, hf, heq⟩ |
      ⟨i, c, k, p, hpc, hp, heq⟩ <;> rw [heq]
  · exact h
  · exact h.claim hpc
  · exact h.advance hconf hdisj hpc hf
  rcases hp with ⟨rfl, hf⟩ | ⟨-, hk, rfl⟩
  · -- the item is done: its prefix is the whole work
    obtain ⟨hc, hk, l₀, hcl, -⟩ := h.busy i c k hpc
    obtain ⟨-, -, -, hkl, -⟩ := h.claimed c hc (h.lt_next hcl)
    have hlen : k = (work c).length :=
      le_antisymm (hk ▸ hkl) (List.getElem?_eq_none_iff.mp hf)
    exact h.leave hpc .claim (fun _ _ => nofun) nofun (.inl hlen)
  · exact h.leave hpc (.done (some c)) (fun _ _ => nofun) (by simp) (.inr ⟨hk, rfl⟩)

lemma Inv.run (h : Inv N work F store₀ s) (may_stop : Bool) (evs : List (Event ι)) :
    Inv N work F store₀ (run N work may_stop s evs) := by
  induction evs generalizing s with
  | nil => exact h
  | cons e evs ih => exact ih (h.step hconf hdisj may_stop e)

/-- **Every schedule keeps the invariant**, from the start. -/
theorem run_inv (loc₀ : ι → L) (may_stop : Bool) (evs : List (Event ι)) :
    Inv N work F store₀ (run N work may_stop (init loc₀ store₀) evs) :=
  (Inv.init loc₀ : Inv N work F store₀ (init loc₀ store₀)).run hconf hdisj may_stop evs

variable (loc₀ : ι → L) (may_stop : Bool) (evs : List (Event ι))

/-- **Mutual exclusion.** In every reachable state, two workers that are busy on one item are
the same worker. -/
theorem run_busy_unique {i j : ι} {c k k' : ℕ}
    (hi : (run N work may_stop (init loc₀ store₀) evs).pc i = .busy c k)
    (hj : (run N work may_stop (init loc₀ store₀) evs).pc j = .busy c k') : i = j :=
  (run_inv hconf hdisj loc₀ may_stop evs).busy_unique hi hj

/-- **Every item is done once.** After a schedule at whose end every worker has found the items
exhausted, each item below `N` has been done whole, as it runs alone from the initial store and
the local state its worker had when it claimed it, and every cell of no item is as it was. -/
theorem run_store_of_exhausted [Nonempty ι]
    (hdone : ∀ i, (run N work may_stop (init loc₀ store₀) evs).pc i = .done none) :
    (∀ c < N, ∃ i l₀, (run N work may_stop (init loc₀ store₀) evs).claims[c]? = some (i, l₀) ∧
      ∀ x ∈ F c, (run N work may_stop (init loc₀ store₀) evs).store x =
        (runAlone (work c) l₀ store₀).2 x) ∧
    ∀ x, (∀ c < N, x ∉ F c) → (run N work may_stop (init loc₀ store₀) evs).store x = store₀ x := by
  have hinv : Inv N work F store₀ _ := run_inv hconf hdisj loc₀ may_stop evs
  refine ⟨fun c hc => ?_, hinv.outside⟩
  have hnext : N ≤ (run N work may_stop (init loc₀ store₀) evs).next :=
    hinv.exhausted (Classical.arbitrary ι) (hdone _)
  have hidle : ∀ i k, (run N work may_stop (init loc₀ store₀) evs).pc i ≠ .busy c k :=
    fun i k hi => by rw [hdone i] at hi; cases hi
  obtain ⟨i, -, -, hk⟩ := hinv.idle c hc (by omega) hidle
  -- no worker left early, so the prefix is the whole work
  have hfull : (run N work may_stop (init loc₀ store₀) evs).prog c = (work c).length := by
    rcases hk with hk | ⟨-, hk⟩
    · exact hk
    · rw [hdone i] at hk
      cases hk
  obtain ⟨j, l₀, hcl, -, hst⟩ := hinv.claimed c hc (by omega)
  refine ⟨j, l₀, hcl, fun x hx => ?_⟩
  rw [hst x hx, hfull, List.take_length]

/-- **Without early leaving, every item is done once** after every schedule at whose end all
workers have left their loop. -/
theorem run_store_of_done [Nonempty ι]
    (hdone : ∀ i, ∃ a, (run N work false (init loc₀ store₀) evs).pc i = .done a) :
    (∀ c < N, ∃ i l₀, (run N work false (init loc₀ store₀) evs).claims[c]? = some (i, l₀) ∧
      ∀ x ∈ F c, (run N work false (init loc₀ store₀) evs).store x =
        (runAlone (work c) l₀ store₀).2 x) ∧
    ∀ x, (∀ c < N, x ∉ F c) → (run N work false (init loc₀ store₀) evs).store x = store₀ x := by
  refine run_store_of_exhausted hconf hdisj loc₀ false evs fun i => ?_
  obtain ⟨a, ha⟩ := hdone i
  cases a with
  | none => exact ha
  | some c => exact absurd ha (run_pc_ne_abandoned N work (fun _ _ => by simp [init]) evs i c)

end Disjoint

end Confined

end Invariant

/-! ## Tallies of the local states -/

section Tally

variable (work : ℕ → List (Step L κ V)) (store₀ : κ → V) (T : L → ℤ)

/-- What the items claimed so far have added to the tally `T` of the local states: for each,
the tally of what its done prefix computes from the local state at the claim, less the tally
at the claim. -/
def gains (s : Sys ι L κ V) : ℤ :=
  ∑ c ∈ Finset.range s.next, match s.claims[c]? with
    | some p => T (runAlone ((work c).take (s.prog c)) p.2 store₀).1 - T p.2
    | none => 0

/-- A sum that changes at one point changes by the change there. -/
lemma sum_eq_add_of_eq_off {α : Type*} [DecidableEq α] {t : Finset α} {f g : α → ℤ} {a : α}
    (ha : a ∈ t) (h : ∀ x ∈ t, x ≠ a → g x = f x) :
    ∑ x ∈ t, g x = ∑ x ∈ t, f x + (g a - f a) := by
  rw [← Finset.add_sum_erase t g ha, ← Finset.add_sum_erase t f ha,
    Finset.sum_congr rfl fun x hx => h x (Finset.mem_of_mem_erase hx) (Finset.ne_of_mem_erase hx)]
  ring

variable {N : ℕ} {F : ℕ → Set κ} {work store₀} {s : Sys ι L κ V}

/-- A claim adds an item with nothing done: the gains stay. -/
lemma gains_claim (h : Inv N work F store₀ s) (pc : ι → Pc) (i : ι) :
    gains work store₀ T
        { s with pc := pc, next := s.next + 1, claims := s.claims ++ [(i, s.loc i)] } =
      gains work store₀ T s := by
  have hlen := h.claims_length
  unfold gains
  dsimp only
  rw [Finset.sum_range_succ, List.getElem?_append_right (by omega), hlen, Nat.sub_self,
    List.getElem?_singleton, if_pos rfl, h.unstarted _ (.inl le_rfl), List.take_zero]
  simp only [runAlone_nil, sub_self, add_zero]
  refine Finset.sum_congr rfl fun c hc => ?_
  rw [List.getElem?_append_left (by rw [hlen]; exact Finset.mem_range.mp hc)]

/-- The gains item by item: each claimed item adds what its claim and its progress fix. -/
lemma gains_eq_sum (h : Inv N work F store₀ s) (G : ℕ → ℤ)
    (hG : ∀ c < s.next, ∀ (i : ι) (l₀ : L), s.claims[c]? = some (i, l₀) →
      T (runAlone ((work c).take (s.prog c)) l₀ store₀).1 - T l₀ = G c) :
    gains work store₀ T s = ∑ c ∈ Finset.range s.next, G c := by
  refine Finset.sum_congr rfl fun c hc => ?_
  have hc' := Finset.mem_range.mp hc
  obtain ⟨⟨i, l₀⟩, hcl⟩ : ∃ p, s.claims[c]? = some p :=
    ⟨_, List.getElem?_eq_getElem (by rw [h.claims_length]; exact hc')⟩
  rw [hcl]
  exact hG c hc' i l₀ hcl

variable [DecidableEq ι]

/-- The tally of worker `i` changes by the change of its local state. -/
lemma sum_update_loc [Fintype ι] (loc : ι → L) (i : ι) (l : L) :
    ∑ j, T (Function.update loc i l j) = ∑ j, T (loc j) + (T l - T (loc i)) := by
  rw [sum_eq_add_of_eq_off (Finset.mem_univ i) fun j _ hj => by rw [Function.update_of_ne hj],
    Function.update_self]

omit [DecidableEq ι] in
/-- A step of item `c` changes the gains by the change of the tally of its prefix. -/
lemma gains_advance (h : Inv N work F store₀ s) {i : ι} {c k : ℕ} (hi : s.pc i = .busy c k)
    {l₀ : L} (hcl : s.claims[c]? = some (i, l₀)) (pc : ι → Pc) (loc : ι → L) (store : κ → V) :
    gains work store₀ T { s with
        pc := pc
        loc := loc
        store := store
        prog := Function.update s.prog c (k + 1) } =
      gains work store₀ T s + (T (runAlone ((work c).take (k + 1)) l₀ store₀).1 -
        T (runAlone ((work c).take k) l₀ store₀).1) := by
  obtain ⟨-, hk, -⟩ := h.busy i c k hi
  unfold gains
  dsimp only
  rw [sum_eq_add_of_eq_off (Finset.mem_range.mpr (h.lt_next hcl)) fun d _ hd => by
    rw [Function.update_of_ne hd], hcl, Function.update_self, hk]
  ring

section Confined

variable [Fintype ι] (hconf : ∀ c < N, ∀ f ∈ work c, Confined (F c) f)
  (hdisj : ∀ c d, c < N → d < N → c ≠ d → Disjoint (F c) (F d)) (loc₀ : ι → L)
include hconf

/-- **Every event keeps the tally identity**: the tallies of the workers are their initial ones
plus the gains of the items. -/
lemma tally_step (h : Inv N work F store₀ s)
    (ht : ∑ i, T (s.loc i) = ∑ i, T (loc₀ i) + gains work store₀ T s) (may_stop : Bool)
    (e : Event ι) :
    ∑ i, T ((step N work may_stop s e).loc i) =
      ∑ i, T (loc₀ i) + gains work store₀ T (step N work may_stop s e) := by
  rcases step_cases N work may_stop s e with heq | ⟨i, -, heq⟩ | ⟨i, c, k, f, hpc, hf, heq⟩ |
      ⟨i, c, k, p, -, -, heq⟩ <;> rw [heq]
  · exact ht
  · rw [gains_claim T h]
    exact ht
  · obtain ⟨l₀, hcl, hloc', -⟩ := h.advance_run hconf hpc hf
    obtain ⟨-, -, l₁, hcl₁, hloc⟩ := h.busy i c k hpc
    obtain ⟨-, rfl⟩ := Prod.mk.inj (Option.some.inj (hcl.symm.trans hcl₁))
    rw [sum_update_loc, gains_advance T h hpc hcl, ht, hloc', hloc]
    ring
  · exact ht

include hdisj

/-- **The tallies add up.** After every schedule, the tallies of the workers are their initial
ones plus what the claimed items have added, each as it runs alone from the local state at its
claim. -/
theorem run_tally (may_stop : Bool) (evs : List (Event ι)) :
    ∑ i, T ((run N work may_stop (init loc₀ store₀) evs).loc i) =
      ∑ i, T (loc₀ i) + gains work store₀ T (run N work may_stop (init loc₀ store₀) evs) := by
  suffices key : ∀ (evs : List (Event ι)) (s : Sys ι L κ V), Inv N work F store₀ s →
      ∑ i, T (s.loc i) = ∑ i, T (loc₀ i) + gains work store₀ T s →
      ∑ i, T ((run N work may_stop s evs).loc i) =
        ∑ i, T (loc₀ i) + gains work store₀ T (run N work may_stop s evs) from
    key evs _ (Inv.init loc₀) (by simp [gains, init])
  intro evs
  induction evs with
  | nil => exact fun _ _ ht => ht
  | cons e evs ih =>
    intro s h ht
    exact ih _ (h.step hconf hdisj may_stop e) (tally_step T hconf loc₀ h ht may_stop e)

end Confined

end Tally

/-! ## Properties of the local states that every step keeps -/

section Good

variable [DecidableEq ι] {N : ℕ} {work : ℕ → List (Step L κ V)} {F : ℕ → Set κ}
  {store₀ : κ → V} (P : L → Prop) (hP : ∀ c < N, ∀ f ∈ work c, ∀ l st, P l → P (f l st).1)
include hP

/-- One event keeps a property of the local states that every step of an item keeps, in every
worker and in every entry of the record. -/
lemma good_step {s : Sys ι L κ V} (h : Inv N work F store₀ s)
    (hs : (∀ i, P (s.loc i)) ∧ ∀ (c : ℕ) (p : ι × L), s.claims[c]? = some p → P p.2) (may_stop : Bool)
    (e : Event ι) :
    (∀ i, P ((step N work may_stop s e).loc i)) ∧
      ∀ (c : ℕ) (p : ι × L), (step N work may_stop s e).claims[c]? = some p → P p.2 := by
  obtain ⟨hloc, hcl⟩ := hs
  rcases step_cases N work may_stop s e with heq | ⟨i, -, heq⟩ | ⟨i, c, k, f, hpc, hf, heq⟩ |
      ⟨i, c, k, p, -, -, heq⟩ <;> rw [heq]
  · exact ⟨hloc, hcl⟩
  · refine ⟨hloc, fun c p hp => ?_⟩
    rw [List.getElem?_append] at hp
    split_ifs at hp
    · exact hcl c p hp
    · obtain ⟨-, rfl⟩ := List.getElem?_eq_some_iff.mp hp
      simp only [List.getElem_singleton]
      exact hloc i
  · refine ⟨fun j => ?_, hcl⟩
    dsimp only
    rw [Function.update_apply]
    split_ifs with hji
    · exact hP c (h.busy i c k hpc).1 f (List.mem_of_getElem? hf) _ _ (hji ▸ hloc j)
    · exact hloc j
  · exact ⟨hloc, hcl⟩

variable (hconf : ∀ c < N, ∀ f ∈ work c, Confined (F c) f)
  (hdisj : ∀ c d, c < N → d < N → c ≠ d → Disjoint (F c) (F d))
include hconf hdisj

/-- **A property every step keeps holds throughout.** If every step of an item keeps a property
of the local states and every worker starts with it, then after every schedule every worker has
it, and so does every local state in the record of the claims. -/
theorem run_good (loc₀ : ι → L) (h₀ : ∀ i, P (loc₀ i)) (may_stop : Bool) (evs : List (Event ι)) :
    (∀ i, P ((run N work may_stop (init loc₀ store₀) evs).loc i)) ∧
      ∀ (c : ℕ) (p : ι × L), (run N work may_stop (init loc₀ store₀) evs).claims[c]? = some p → P p.2 := by
  suffices key : ∀ (evs : List (Event ι)) (s : Sys ι L κ V), Inv N work F store₀ s →
      ((∀ i, P (s.loc i)) ∧ ∀ (c : ℕ) (p : ι × L), s.claims[c]? = some p → P p.2) →
      (∀ i, P ((run N work may_stop s evs).loc i)) ∧
        ∀ (c : ℕ) (p : ι × L), (run N work may_stop s evs).claims[c]? = some p → P p.2 from
    key evs _ (Inv.init loc₀) ⟨h₀, fun _ _ hp => by simp [init] at hp⟩
  intro evs
  induction evs with
  | nil => exact fun _ _ hs => hs
  | cons e evs ih =>
    intro s h hs
    exact ih _ (h.step hconf hdisj may_stop e) (good_step P hP h hs may_stop e)

end Good

end WorkQueue
