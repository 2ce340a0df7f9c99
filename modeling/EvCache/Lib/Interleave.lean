import Mathlib

set_option autoImplicit false

/-!
# Threads with disjoint footprints over a shared store

Threads run over one shared store `κ → V`, each with a local state of type `L` and a program:
a list of atomic steps, each of which reads the thread's local state and the store and gives
the thread's next local state and the store it leaves. A schedule is a list of thread names,
and each entry lets that thread take its next step. A step is one atomic access, or a longer
piece of code that touches no cell another thread touches; a finer split of a step into steps
with the same footprint is again a program of this kind.

The footprint of a thread is the set of cells its steps may touch: a step *confined* to `F`
leaves every other cell as it was, and what it computes depends on the store only through
`F`. When the footprints of the threads are pairwise disjoint the threads do not race: after
any schedule, each thread's local state and the cells of its footprint are what the thread
computes running alone on the initial store the steps it has taken, and the cells of no
footprint are as they were. So every schedule after which all threads are done ends in one and
the same configuration, the one of running the threads one after another.

## Main definitions

* `Interleave.Config` — the threads' programs, their local states and the store.
* `Interleave.Config.step`, `Interleave.Config.run` — one step of a thread, and a schedule.
* `Interleave.runAlone` — a thread's steps run alone.
* `Interleave.Config.runSeq` — the threads run one after another, each to its end.
* `Interleave.Confined` — a step touches the store only on a set of cells.
* `Interleave.cellStep` — a step that reads and writes one cell.

## Main results

* `Interleave.Agrees.step` — one step of any thread keeps the agreement with the threads run
  alone; `Interleave.run_agrees` — so does every schedule.
* `Interleave.run_eq_of_done` — any two schedules after which all threads are done give the
  same configuration.
* `Interleave.run_eq_runSeq` — it is the configuration of the threads run one after another.
-/

namespace Interleave

variable {ι L κ V : Type*}

/-- One atomic step of a thread: from its local state and the store, its next local state and
the store it leaves. -/
abbrev Step (L κ V : Type*) := L → (κ → V) → L × (κ → V)

/-! ## A thread alone -/

/-- A thread's steps run alone, in order, from the local state `l` and the store `s`. -/
def runAlone : List (Step L κ V) → L → (κ → V) → L × (κ → V)
  | [], l, s => (l, s)
  | f :: rest, l, s => runAlone rest (f l s).1 (f l s).2

@[simp] lemma runAlone_nil (l : L) (s : κ → V) : runAlone [] l s = (l, s) := rfl

@[simp] lemma runAlone_cons (f : Step L κ V) (rest : List (Step L κ V)) (l : L) (s : κ → V) :
    runAlone (f :: rest) l s = runAlone rest (f l s).1 (f l s).2 := rfl

/-- A prefix run alone, then one step more. -/
lemma runAlone_append_singleton (done : List (Step L κ V)) (f : Step L κ V) (l : L)
    (s : κ → V) :
    runAlone (done ++ [f]) l s = f (runAlone done l s).1 (runAlone done l s).2 := by
  induction done generalizing l s with
  | nil => rfl
  | cons g done ih => exact ih _ _

/-- The steps of a loop over `xs` run alone are the loop as a left fold. -/
lemma runAlone_map {α : Type*} (g : α → Step L κ V) (xs : List α) (l : L) (s : κ → V) :
    runAlone (xs.map g) l s = xs.foldl (fun p x => g x p.1 p.2) (l, s) := by
  induction xs generalizing l s with
  | nil => rfl
  | cons x xs ih => exact ih _ _

/-! ## Configurations and schedules -/

/-- Threads named by `ι` over one store: the steps each has still to take, the local state of
each, and the store. -/
@[ext]
structure Config (ι L κ V : Type*) where
  prog : ι → List (Step L κ V)
  loc : ι → L
  store : κ → V

namespace Config

variable [DecidableEq ι]

/-- Thread `i` takes its next step; a thread with no step left takes none. -/
def step (c : Config ι L κ V) (i : ι) : Config ι L κ V :=
  match c.prog i with
  | [] => c
  | f :: rest =>
    ⟨Function.update c.prog i rest, Function.update c.loc i (f (c.loc i) c.store).1,
      (f (c.loc i) c.store).2⟩

/-- The threads take steps in the order of the schedule. -/
def run (c : Config ι L κ V) (sched : List ι) : Config ι L κ V := sched.foldl step c

/-- Thread `i` runs the rest of its program alone. -/
def finish (c : Config ι L κ V) (i : ι) : Config ι L κ V :=
  ⟨Function.update c.prog i [],
    Function.update c.loc i (runAlone (c.prog i) (c.loc i) c.store).1,
    (runAlone (c.prog i) (c.loc i) c.store).2⟩

/-- The threads of `order` run one after another, each to its end. -/
def runSeq (c : Config ι L κ V) (order : List ι) : Config ι L κ V := order.foldl finish c

lemma step_of_nil {c : Config ι L κ V} {i : ι} (h : c.prog i = []) : c.step i = c := by
  simp [step, h]

lemma step_of_cons {c : Config ι L κ V} {i : ι} {f : Step L κ V} {rest : List (Step L κ V)}
    (h : c.prog i = f :: rest) :
    c.step i = ⟨Function.update c.prog i rest,
      Function.update c.loc i (f (c.loc i) c.store).1, (f (c.loc i) c.store).2⟩ := by
  simp [step, h]

@[simp] lemma run_nil (c : Config ι L κ V) : c.run [] = c := rfl

@[simp] lemma run_cons (c : Config ι L κ V) (i : ι) (sched : List ι) :
    c.run (i :: sched) = (c.step i).run sched := rfl

lemma run_append (c : Config ι L κ V) (s₁ s₂ : List ι) :
    c.run (s₁ ++ s₂) = (c.run s₁).run s₂ :=
  List.foldl_append

/-- As many steps of thread `i` as it has left run it to its end. -/
lemma run_replicate (c : Config ι L κ V) (i : ι) :
    c.run (List.replicate (c.prog i).length i) = c.finish i := by
  generalize hp : c.prog i = p
  induction p generalizing c with
  | nil =>
    rw [List.length_nil, List.replicate_zero, run_nil]
    ext1
    · simp only [finish]
      rw [← hp, Function.update_eq_self]
    · simp [finish, hp]
    · simp [finish, hp]
  | cons f rest ih =>
    rw [List.length_cons, List.replicate_succ, run_cons, ih (c.step i) (by simp [step_of_cons hp])]
    simp [finish, step_of_cons hp, hp]

/-- Running the threads one after another is one of the schedules. -/
lemma runSeq_eq_run (c : Config ι L κ V) (order : List ι) :
    ∃ sched, c.runSeq order = c.run sched := by
  induction order generalizing c with
  | nil => exact ⟨[], rfl⟩
  | cons i order ih =>
    obtain ⟨sched, hs⟩ := ih (c.finish i)
    refine ⟨List.replicate (c.prog i).length i ++ sched, ?_⟩
    rw [run_append, run_replicate]
    exact hs

lemma step_prog (c : Config ι L κ V) (j i : ι) :
    (c.step j).prog i = if i = j then (c.prog i).tail else c.prog i := by
  cases hp : c.prog j with
  | nil =>
    rw [step_of_nil hp]
    split_ifs with h
    · rw [h, hp, List.tail_nil]
    · rfl
  | cons f rest =>
    rw [step_of_cons hp]
    by_cases h : i = j
    · subst h
      simp [hp]
    · simp [h]

/-- After a schedule, each thread has taken one step for each of its turns. -/
lemma run_prog (c : Config ι L κ V) (sched : List ι) (i : ι) :
    (c.run sched).prog i = (c.prog i).drop (sched.count i) := by
  induction sched generalizing c with
  | nil => simp
  | cons j sched ih =>
    rw [run_cons, ih, step_prog, List.count_cons]
    by_cases h : i = j
    · subst h
      simp [List.drop_tail]
    · simp [h, Ne.symm h]

/-- A schedule that gives every thread as many turns as it has steps runs it to its end. -/
lemma run_prog_eq_nil {c : Config ι L κ V} {sched : List ι}
    (h : ∀ i, (c.prog i).length ≤ sched.count i) (i : ι) : (c.run sched).prog i = [] := by
  rw [run_prog, List.drop_eq_nil_of_le (h i)]

lemma runSeq_prog (c : Config ι L κ V) (order : List ι) (i : ι) :
    (c.runSeq order).prog i = if i ∈ order then [] else c.prog i := by
  induction order generalizing c with
  | nil => simp [runSeq]
  | cons j order ih =>
    simp only [runSeq, List.foldl_cons] at ih ⊢
    rw [ih]
    by_cases hij : i = j <;> simp [finish, hij]

end Config

/-! ## Footprints -/

/-- The step `f` touches the store only on the cells `F`: it leaves every other cell as it
was, and its local state and the cells of `F` it leaves depend on the store only through
`F`. -/
structure Confined (F : Set κ) (f : Step L κ V) : Prop where
  frame : ∀ l s, ∀ k ∉ F, (f l s).2 k = s k
  reads : ∀ l s t, (∀ k ∈ F, s k = t k) →
    (f l s).1 = (f l t).1 ∧ ∀ k ∈ F, (f l s).2 k = (f l t).2 k

/-- A step confined to `F` is confined to every larger set. -/
lemma Confined.mono {F G : Set κ} {f : Step L κ V} (h : Confined F f) (hFG : F ⊆ G) :
    Confined G f := by
  refine ⟨fun l s k hk => h.frame l s k fun hF => hk (hFG hF), fun l s t hst => ?_⟩
  have hF := h.reads l s t fun k hk => hst k (hFG hk)
  refine ⟨hF.1, fun k hk => ?_⟩
  by_cases hkF : k ∈ F
  · exact hF.2 k hkF
  · rw [h.frame l s k hkF, h.frame l t k hkF, hst k hk]

/-- The step that reads the cell `k`, computes from it and the local state with `g`, and
writes the cell back. -/
def cellStep [DecidableEq κ] (k : κ) (g : L → V → L × V) : Step L κ V :=
  fun l s => ((g l (s k)).1, Function.update s k (g l (s k)).2)

lemma confined_cellStep [DecidableEq κ] (k : κ) (g : L → V → L × V) :
    Confined {k} (cellStep k g) := by
  refine ⟨fun l s j hj => ?_, fun l s t hst => ?_⟩
  · have hjk : j ≠ k := hj
    simp [cellStep, Function.update_of_ne hjk]
  · have hk : s k = t k := hst k rfl
    refine ⟨by simp [cellStep, hk], fun j hj => ?_⟩
    have hjk : j = k := hj
    subst hjk
    simp [cellStep, hk]

/-- Steps confined to `F`, run alone, leave every cell outside `F` as it was. -/
lemma runAlone_frame {F : Set κ} {fs : List (Step L κ V)} (h : ∀ f ∈ fs, Confined F f) (l : L)
    (s : κ → V) {k : κ} (hk : k ∉ F) : (runAlone fs l s).2 k = s k := by
  induction fs generalizing l s with
  | nil => rfl
  | cons f fs ih =>
    rw [runAlone_cons, ih (fun g hg => h g (List.mem_cons_of_mem f hg)),
      (h f List.mem_cons_self).frame l s k hk]

/-- The footprints of threads `0, 1, ...` given by the lists of `cells`; a thread past its end
has none. -/
def listFootprint (cells : List (List κ)) (i : ℕ) : Set κ := {k | k ∈ cells.getD i []}

/-- Lists of cells that are pairwise disjoint give pairwise disjoint footprints. -/
lemma pairwise_disjoint_listFootprint {cells : List (List κ)} (h : cells.Pairwise List.Disjoint) :
    Pairwise fun i j => Disjoint (listFootprint cells i) (listFootprint cells j) := by
  intro i j hij
  rw [Set.disjoint_left]
  intro k hi hj
  simp only [listFootprint, Set.mem_ofPred_eq, List.getD_eq_getElem?_getD] at hi hj
  cases hci : cells[i]? with
  | none => simp [hci] at hi
  | some ci =>
    cases hcj : cells[j]? with
    | none => simp [hcj] at hj
    | some cj =>
      rw [hci, Option.getD_some] at hi
      rw [hcj, Option.getD_some] at hj
      obtain ⟨hi', rfl⟩ := List.getElem?_eq_some_iff.mp hci
      obtain ⟨hj', rfl⟩ := List.getElem?_eq_some_iff.mp hcj
      rcases Nat.lt_or_gt_of_ne hij with hlt | hlt
      · exact List.pairwise_iff_getElem.mp h i j hi' hj' hlt hi hj
      · exact List.pairwise_iff_getElem.mp h j i hj' hi' hlt hj hi

/-! ## No races between threads with disjoint footprints -/

section Agreement

variable (F : ι → Set κ)

/-- The configuration `c`, reached from `c₀`, agrees with the threads run alone: each thread
has taken a prefix `done` of its program, and its local state and the cells of its footprint
are what it computes running `done` alone on the initial store; the cells of no footprint are
as they were. -/
structure Agrees (c₀ c : Config ι L κ V) : Prop where
  thread : ∀ i, ∃ done, c₀.prog i = done ++ c.prog i ∧
    c.loc i = (runAlone done (c₀.loc i) c₀.store).1 ∧
    ∀ k ∈ F i, c.store k = (runAlone done (c₀.loc i) c₀.store).2 k
  outside : ∀ k, (∀ i, k ∉ F i) → c.store k = c₀.store k

lemma Agrees.init (c₀ : Config ι L κ V) : Agrees F c₀ c₀ :=
  ⟨fun _ => ⟨[], rfl, rfl, fun _ _ => rfl⟩, fun _ _ => rfl⟩

variable {F} {c₀ : Config ι L κ V}

/-- A thread that has finished has run its whole program alone. -/
lemma Agrees.of_done {c : Config ι L κ V} (h : Agrees F c₀ c) {i : ι} (hi : c.prog i = []) :
    c.loc i = (runAlone (c₀.prog i) (c₀.loc i) c₀.store).1 ∧
      ∀ k ∈ F i, c.store k = (runAlone (c₀.prog i) (c₀.loc i) c₀.store).2 k := by
  obtain ⟨done, hdone, hloc, hst⟩ := h.thread i
  rw [hi, List.append_nil] at hdone
  rw [hdone]
  exact ⟨hloc, hst⟩

variable [DecidableEq ι] (hdisj : Pairwise fun i j => Disjoint (F i) (F j))
  (hconf : ∀ i, ∀ f ∈ c₀.prog i, Confined (F i) f)
include hdisj hconf

/-- **One step of any thread keeps the agreement.** The step of thread `i` sees the cells of
its footprint as the thread alone would and writes no cell of another footprint.

**Proof sketch.** The prefix of thread `i` grows by the step; the other threads' prefixes stay,
and their cells are in no footprint of `i`, so the step leaves them. -/
lemma Agrees.step {c : Config ι L κ V} (h : Agrees F c₀ c) (i : ι) :
    Agrees F c₀ (c.step i) := by
  cases hp : c.prog i with
  | nil => rwa [Config.step_of_nil hp]
  | cons f rest =>
    rw [Config.step_of_cons hp]
    obtain ⟨done, hdone, hloc, hst⟩ := h.thread i
    have hf : Confined (F i) f := hconf i f (by rw [hdone, hp]; simp)
    have hreads := hf.reads (c.loc i) c.store (runAlone done (c₀.loc i) c₀.store).2 hst
    refine ⟨fun j => ?_, fun k hk => ?_⟩
    · by_cases hji : j = i
      · subst hji
        refine ⟨done ++ [f], by simp [hdone, hp], ?_, fun k hk => ?_⟩
        · dsimp only
          rw [Function.update_self, runAlone_append_singleton, hreads.1, hloc]
        · dsimp only
          rw [runAlone_append_singleton, hreads.2 k hk, hloc]
      · obtain ⟨done', hdone', hloc', hst'⟩ := h.thread j
        refine ⟨done', by simpa [hji] using hdone', by simpa [hji] using hloc', fun k hk => ?_⟩
        -- a cell of thread `j` lies outside the footprint of `i`
        have hki : k ∉ F i := Set.disjoint_left.mp (hdisj hji) hk
        dsimp only
        rw [hf.frame _ _ k hki, hst' k hk]
    · dsimp only
      rw [hf.frame _ _ k (hk i), h.outside k hk]

lemma Agrees.run {c : Config ι L κ V} (h : Agrees F c₀ c) (sched : List ι) :
    Agrees F c₀ (c.run sched) := by
  induction sched generalizing c with
  | nil => exact h
  | cons i sched ih => exact ih (h.step hdisj hconf i)

/-- **Every schedule agrees with the threads run alone.** -/
theorem run_agrees (sched : List ι) : Agrees F c₀ (c₀.run sched) :=
  (Agrees.init F c₀).run hdisj hconf sched

/-- **Schedules do not matter.** Any two schedules after which every thread has finished end
in the same configuration.

**Proof sketch.** Both agree with the threads run alone: every local state and every cell of
a footprint is the one of its thread's whole program, and every other cell is as it was. -/
theorem run_eq_of_done {s₁ s₂ : List ι} (h₁ : ∀ i, (c₀.run s₁).prog i = [])
    (h₂ : ∀ i, (c₀.run s₂).prog i = []) : c₀.run s₁ = c₀.run s₂ := by
  have a₁ := run_agrees hdisj hconf s₁
  have a₂ := run_agrees hdisj hconf s₂
  ext1
  · funext i
    rw [h₁ i, h₂ i]
  · funext i
    rw [(a₁.of_done (h₁ i)).1, (a₂.of_done (h₂ i)).1]
  · funext k
    by_cases hk : ∃ i, k ∈ F i
    · obtain ⟨i, hi⟩ := hk
      rw [(a₁.of_done (h₁ i)).2 k hi, (a₂.of_done (h₂ i)).2 k hi]
    · have hout : ∀ i, k ∉ F i := fun i hi => hk ⟨i, hi⟩
      rw [a₁.outside k hout, a₂.outside k hout]

/-- **A complete schedule is the sequential run.** Every schedule after which all threads are
done ends where the threads run one after another end, in any order that lists every thread
with steps to take. -/
theorem run_eq_runSeq {sched : List ι} (hdone : ∀ i, (c₀.run sched).prog i = [])
    {order : List ι} (horder : ∀ i, c₀.prog i ≠ [] → i ∈ order) :
    c₀.run sched = c₀.runSeq order := by
  obtain ⟨sched', hs⟩ := c₀.runSeq_eq_run order
  rw [hs]
  refine run_eq_of_done hdisj hconf hdone fun i => ?_
  rw [← hs, Config.runSeq_prog]
  split_ifs with hi
  · rfl
  · by_contra hne
    exact hi (horder i hne)

end Agreement

end Interleave
