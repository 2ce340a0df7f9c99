import Mathlib.Data.List.Basic
import Mathlib.Data.Int.Notation

set_option autoImplicit false

/-!
# The handshake with the helper thread

The helper thread of an eviction test is commanded through the fields of
`helper_thread_ctrl`. The issuing thread writes `action` and `payload`, clears `waiting`, and
spins until `waiting` is set again. `helper_thread_worker` sets `waiting`, spins while it is
set, then reads `action` and `payload` and executes the command. `HELPER_STOP` makes it
return. The flag is the only synchronisation.

Under sequentially consistent memory the handshake neither loses nor duplicates a command, for
every interleaving of the two threads (`handshake_safe`):

* whenever the issuer writes `action` or `payload`, the helper has set `waiting` and spins on
  it, and has read exactly the commands before;
* when a `wait_helper_thread` returns, the helper has read and executed exactly the commands
  issued so far, each once, with the action and payload written for it;
* when `pthread_join` returns, the helper has returned on `HELPER_STOP` after exactly the
  issued commands.

## Main definitions

* `EvCache.Helper.issuerStep`, `EvCache.Helper.helperStep` — one step of each thread.
* `EvCache.Helper.Reachable` — the states of the interleavings of a run.
* `EvCache.Helper.Inv` — the invariant of the handshake.

## Main results

* `EvCache.Helper.Reachable.inv` — every reachable state satisfies `Inv`.
* `EvCache.Helper.handshake_safe` — the three properties above.

## Model

A run is `start_helper_thread`, or `start_helper_thread_pinned` with a core, then a list of
commands, each one call of `helper_thread_read_single`, `helper_thread_time_single`,
`traverse_cands_mt` or `helper_thread_traverse_cands`, then `stop_helper_thread`. A step of a
thread is one access to a shared field. A spin that exits is one step, and a spin that goes on
changes nothing, so it is left out. What a command does besides those accesses is local to its
thread: the reloads of the helper and the traversal `traverse_cands_mt` does itself, which
commands no helper. `pthread_create` succeeds, and the issuer's `running` flag is then set for
`stop_helper_thread`. The helper's timed reload gives any latency. The ghost field `log`
records the commands the helper reads, in order.

## References

* `src/include/helper_thread.h`, lines 11-96; `src/src/helper_thread.c`, lines 7-49;
  `src/src/cache_ops.c`, lines 5-39; `src/src/evset.c`, lines 65-85.
-/

namespace EvCache.Helper

/-! ## Model -/

/-- `helper_thread_action` (`helper_thread.h:11-17`). -/
inductive Action where
  | helperStop
  | readSingle
  | timeSingle
  | readArray
  | traverseCands
  deriving DecidableEq, Repr

/-- The fields of `helper_thread_ctrl` (`helper_thread.h:19-27`) both threads access. -/
structure Ctrl where
  waiting : Bool
  action : Action
  payload : ℕ
  lat : ℕ
  core_id : ℤ
  deriving DecidableEq, Repr

/-- A command of the issuing thread: the function that issues it, and its payload. -/
inductive Cmd where
  /-- `helper_thread_read_single(target, ctrl)`. -/
  | readSingle (target : ℕ)
  /-- `helper_thread_time_single(target, ctrl)`. -/
  | timeSingle (target : ℕ)
  /-- `traverse_cands_mt(cands, cnt, tconf)`, with its `helper_thread_read_array` at `arr`. -/
  | traverseCandsMt (arr : ℕ)
  /-- `helper_thread_traverse_cands(cands, cnt, tconf)`, with its command at `tcands`. -/
  | traverseCands (tcands : ℕ)
  deriving DecidableEq, Repr

/-- The action a command writes. -/
def Cmd.action : Cmd → Action
  | .readSingle _ => .readSingle
  | .timeSingle _ => .timeSingle
  | .traverseCandsMt _ => .readArray
  | .traverseCands _ => .traverseCands

/-- The payload a command writes. -/
def Cmd.payload : Cmd → ℕ
  | .readSingle p | .timeSingle p | .traverseCandsMt p | .traverseCands p => p

/-- `traverse_cands_mt` traverses the candidates itself between issuing and waiting. -/
def Cmd.primes : Cmd → Bool
  | .traverseCandsMt _ => true
  | _ => false

/-- `helper_thread_time_single` reads `lat` once the wait returns. -/
def Cmd.timed : Cmd → Bool
  | .timeSingle _ => true
  | _ => false

/-- Where the issuing thread is: the next access it makes. -/
inductive IPc where
  /-- `ctrl->waiting = false` of the start. -/
  | start
  /-- `ctrl->core_id = core_id` of `start_helper_thread_pinned`. -/
  | pin
  /-- `pthread_create`. -/
  | create
  /-- `wait_helper_thread(ctrl)` of the start. -/
  | startWait
  /-- `ctrl->action = ...` of command `k`. -/
  | act (k : ℕ)
  /-- `ctrl->payload = ...` of command `k`. -/
  | pay (k : ℕ)
  /-- `ctrl->waiting = false` of command `k`. -/
  | go (k : ℕ)
  /-- The traversal of `traverse_cands_mt` for command `k`. -/
  | work (k : ℕ)
  /-- `wait_helper_thread(ctrl)` of command `k`. -/
  | wait (k : ℕ)
  /-- `return ctrl->lat` of command `k`. -/
  | readLat (k : ℕ)
  /-- `ctrl->action = HELPER_STOP`. -/
  | stopAct
  /-- `ctrl->waiting = false` of the stop. -/
  | stopGo
  /-- `pthread_join(ctrl->pid, NULL)`. -/
  | join
  /-- The run is over. -/
  | fin
  deriving DecidableEq, Repr

/-- Where `helper_thread_worker` is. -/
inductive HPc where
  /-- Not created yet. -/
  | notCreated
  /-- `ctrl->waiting = true`. -/
  | top
  /-- `while (ctrl->waiting);`. -/
  | spin
  /-- `switch (ctrl->action)`. -/
  | readAction
  /-- The read of `ctrl->payload` in the case of `a`. -/
  | readPayload (a : Action)
  /-- The command `a` on `p`: its accesses, and `ctrl->lat = ...` for `TIME_SINGLE`. -/
  | run (a : Action) (p : ℕ)
  /-- `return NULL`. -/
  | done
  deriving DecidableEq, Repr

/-- Both threads and the shared fields; `log` is ghost. -/
structure Sys where
  ctrl : Ctrl
  ipc : IPc
  hpc : HPc
  log : List (Action × ℕ)

/-- The issuer's position after command `k`: the next command, or `stop_helper_thread`. -/
def nextCmd (cmds : List Cmd) (k : ℕ) : IPc := if k < cmds.length then .act k else .stopAct

/-- One step of the issuing thread, `none` while it spins. `pinned` is the core of
`start_helper_thread_pinned`, `none` for `start_helper_thread`. -/
def issuerStep (cmds : List Cmd) (pinned : Option ℤ) (s : Sys) : Option Sys :=
  match s.ipc with
  | .start =>
    some { s with ctrl := { s.ctrl with waiting := false },
                  ipc := if pinned.isSome then .pin else .create }
  | .pin => some { s with ctrl := { s.ctrl with core_id := pinned.getD s.ctrl.core_id },
                          ipc := .create }
  | .create => some { s with hpc := .top, ipc := .startWait }
  | .startWait => if s.ctrl.waiting then some { s with ipc := nextCmd cmds 0 } else none
  | .act k => cmds[k]?.map fun c =>
    { s with ctrl := { s.ctrl with action := c.action }, ipc := .pay k }
  | .pay k => cmds[k]?.map fun c =>
    { s with ctrl := { s.ctrl with payload := c.payload }, ipc := .go k }
  | .go k => cmds[k]?.map fun c =>
    { s with ctrl := { s.ctrl with waiting := false }, ipc := if c.primes then .work k else .wait k }
  | .work k => some { s with ipc := .wait k }
  | .wait k =>
    if s.ctrl.waiting then
      cmds[k]?.map fun c => { s with ipc := if c.timed then .readLat k else nextCmd cmds (k + 1) }
    else none
  | .readLat k => some { s with ipc := nextCmd cmds (k + 1) }
  | .stopAct => some { s with ctrl := { s.ctrl with action := .helperStop }, ipc := .stopGo }
  | .stopGo => some { s with ctrl := { s.ctrl with waiting := false }, ipc := .join }
  | .join => if s.hpc = .done then some { s with ipc := .fin } else none
  | .fin => none

/-- One step of `helper_thread_worker` (`helper_thread.c:7-49`), `none` while it spins or
once it has returned. A timed reload measures `lat`. -/
def helperStep (lat : ℕ) (s : Sys) : Option Sys :=
  match s.hpc with
  | .notCreated => none
  | .top => some { s with ctrl := { s.ctrl with waiting := true }, hpc := .spin }
  | .spin => if s.ctrl.waiting then none else some { s with hpc := .readAction }
  | .readAction =>
    some { s with hpc := if s.ctrl.action = .helperStop then .done else .readPayload s.ctrl.action }
  | .readPayload a =>
    some { s with hpc := .run a s.ctrl.payload, log := s.log ++ [(a, s.ctrl.payload)] }
  | .run a _ =>
    some { s with ctrl := if a = .timeSingle then { s.ctrl with lat := lat } else s.ctrl,
                  hpc := .top }
  | .done => none

/-- The states of the interleavings of the run of `cmds`, from any contents of the control
block. -/
inductive Reachable (cmds : List Cmd) (pinned : Option ℤ) : Sys → Prop where
  | init (ctrl : Ctrl) : Reachable cmds pinned ⟨ctrl, .start, .notCreated, []⟩
  | issuer {s s' : Sys} : Reachable cmds pinned s → issuerStep cmds pinned s = some s' →
      Reachable cmds pinned s'
  | helper {s s' : Sys} (lat : ℕ) : Reachable cmds pinned s → helperStep lat s = some s' →
      Reachable cmds pinned s'

/-! ## The invariant -/

/-- The first `k` commands as the helper reads them. -/
def issued (cmds : List Cmd) (k : ℕ) : List (Action × ℕ) :=
  (cmds.take k).map fun c => (c.action, c.payload)

/-- The helper spins on `waiting`, which it has set, after reading the first `k` commands. -/
def Idle (cmds : List Cmd) (k : ℕ) (s : Sys) : Prop :=
  s.hpc = .spin ∧ s.ctrl.waiting = true ∧ s.log = issued cmds k

/-- Command `k` is `c` and in flight: `action` and `payload` are its own, and the helper is
before its read of them or after, back at its spin once it has set `waiting`. -/
def Busy (cmds : List Cmd) (k : ℕ) (c : Cmd) (s : Sys) : Prop :=
  s.ctrl.action = c.action ∧ s.ctrl.payload = c.payload ∧
    (s.ctrl.waiting = false ∧ s.log = issued cmds k ∧
        (s.hpc = .spin ∨ s.hpc = .readAction ∨ s.hpc = .readPayload c.action) ∨
      s.log = issued cmds (k + 1) ∧
        (s.ctrl.waiting = false ∧ (s.hpc = .run c.action c.payload ∨ s.hpc = .top) ∨
          s.hpc = .spin ∧ s.ctrl.waiting = true))

/-- **The invariant of the handshake**, by the position of the issuer. -/
def Inv (cmds : List Cmd) (s : Sys) : Prop :=
  match s.ipc with
  | .start => s.hpc = .notCreated ∧ s.log = []
  | .pin => s.hpc = .notCreated ∧ s.ctrl.waiting = false ∧ s.log = []
  | .create => s.hpc = .notCreated ∧ s.ctrl.waiting = false ∧ s.log = []
  | .startWait =>
    s.log = [] ∧ (s.hpc = .top ∧ s.ctrl.waiting = false ∨ s.hpc = .spin ∧ s.ctrl.waiting = true)
  | .act k => k < cmds.length ∧ Idle cmds k s
  | .pay k => ∃ c, cmds[k]? = some c ∧ Idle cmds k s ∧ s.ctrl.action = c.action
  | .go k =>
    ∃ c, cmds[k]? = some c ∧ Idle cmds k s ∧ s.ctrl.action = c.action ∧ s.ctrl.payload = c.payload
  | .work k => ∃ c, cmds[k]? = some c ∧ Busy cmds k c s
  | .wait k => ∃ c, cmds[k]? = some c ∧ Busy cmds k c s
  | .readLat k => k < cmds.length ∧ Idle cmds (k + 1) s
  | .stopAct => Idle cmds cmds.length s
  | .stopGo => Idle cmds cmds.length s ∧ s.ctrl.action = .helperStop
  | .join =>
    s.ctrl.action = .helperStop ∧ s.log = issued cmds cmds.length ∧
      (s.hpc = .spin ∧ s.ctrl.waiting = false ∨ s.hpc = .readAction ∨ s.hpc = .done)
  | .fin => s.hpc = .done ∧ s.log = issued cmds cmds.length

/-! ## What a step can do -/

section Steps

variable {cmds : List Cmd}

lemma issued_succ {k : ℕ} {c : Cmd} (hc : cmds[k]? = some c) :
    issued cmds (k + 1) = issued cmds k ++ [(c.action, c.payload)] := by
  rw [issued, issued, List.take_add_one, hc, Option.toList_some, List.map_append, List.map_singleton]

lemma Cmd.action_ne_helperStop (c : Cmd) : c.action ≠ .helperStop := by
  cases c <;> simp [Cmd.action]

/-- **What one step of the helper can do.** -/
lemma helperStep_cases {lat : ℕ} {s s' : Sys} (h : helperStep lat s = some s') :
    s.hpc = .top ∧ s' = { s with ctrl := { s.ctrl with waiting := true }, hpc := .spin } ∨
    s.hpc = .spin ∧ s.ctrl.waiting = false ∧ s' = { s with hpc := .readAction } ∨
    s.hpc = .readAction ∧ s' = { s with hpc :=
      if s.ctrl.action = .helperStop then .done else .readPayload s.ctrl.action } ∨
    (∃ a, s.hpc = .readPayload a ∧
      s' = { s with hpc := .run a s.ctrl.payload, log := s.log ++ [(a, s.ctrl.payload)] }) ∨
    ∃ a p, s.hpc = .run a p ∧
      s' = { s with ctrl := if a = .timeSingle then { s.ctrl with lat := lat } else s.ctrl,
                    hpc := .top } := by
  unfold Helper.helperStep at h
  cases hh : s.hpc with
  | notCreated => simp [hh] at h
  | top =>
    simp only [hh, Option.some.injEq] at h
    exact .inl ⟨rfl, h.symm⟩
  | spin =>
    simp only [hh] at h
    split_ifs at h with hw
    simp only [Option.some.injEq] at h
    exact .inr (.inl ⟨rfl, by simpa using hw, h.symm⟩)
  | readAction =>
    simp only [hh, Option.some.injEq] at h
    exact .inr (.inr (.inl ⟨rfl, h.symm⟩))
  | readPayload a =>
    simp only [hh, Option.some.injEq] at h
    exact .inr (.inr (.inr (.inl ⟨a, rfl, h.symm⟩)))
  | run a p =>
    simp only [hh, Option.some.injEq] at h
    exact .inr (.inr (.inr (.inr ⟨a, p, rfl, h.symm⟩)))
  | done => simp [hh] at h

/-- A helper spinning on a set flag, or not running, takes no step. -/
lemma helperStep_eq_none {lat : ℕ} {s : Sys}
    (h : s.hpc = .spin ∧ s.ctrl.waiting = true ∨ s.hpc = .notCreated ∨ s.hpc = .done) :
    helperStep lat s = none := by
  unfold Helper.helperStep
  rcases h with ⟨hpc, hw⟩ | hpc | hpc
  · simp [hpc, hw]
  · simp [hpc]
  · simp [hpc]

/-- A helper step changes neither the issuer nor the command in `ctrl`. -/
lemma helperStep_frame {lat : ℕ} {s s' : Sys} (h : helperStep lat s = some s') :
    s'.ipc = s.ipc ∧ s'.ctrl.action = s.ctrl.action ∧ s'.ctrl.payload = s.ctrl.payload := by
  rcases helperStep_cases h with ⟨-, rfl⟩ | ⟨-, -, rfl⟩ | ⟨-, rfl⟩ | ⟨a, -, rfl⟩ | ⟨a, p, -, rfl⟩
  · exact ⟨rfl, rfl, rfl⟩
  · exact ⟨rfl, rfl, rfl⟩
  · exact ⟨rfl, rfl, rfl⟩
  · exact ⟨rfl, rfl, rfl⟩
  · by_cases ha : a = .timeSingle <;> simp [ha]

/-- **A command in flight stays in flight** under a helper step: the helper reads it once,
executes it and sets `waiting`. -/
lemma Busy.helperStep {k : ℕ} {c : Cmd} {s s' : Sys} (hb : Busy cmds k c s) (hc : cmds[k]? = some c)
    {lat : ℕ} (h : Helper.helperStep lat s = some s') : Busy cmds k c s' := by
  obtain ⟨ha, hp, hph⟩ := hb
  have hfr := helperStep_frame h
  refine ⟨hfr.2.1.trans ha, hfr.2.2.trans hp, ?_⟩
  rcases helperStep_cases h with ⟨hpc, rfl⟩ | ⟨hpc, hw, rfl⟩ | ⟨hpc, rfl⟩ | ⟨a, hpc, rfl⟩ |
      ⟨a, p, hpc, rfl⟩
  · -- `waiting = true` after the command: the wait may return
    simp [hpc] at hph
    exact .inr ⟨hph.1, .inr ⟨rfl, rfl⟩⟩
  · simp [hpc, hw] at hph
    exact .inl ⟨hw, hph, .inr (.inl rfl)⟩
  · simp [hpc] at hph
    rw [ha, if_neg c.action_ne_helperStop]
    exact .inl ⟨hph.1, hph.2, .inr (.inr rfl)⟩
  · -- the one read of the command
    simp [hpc] at hph
    obtain ⟨hw, hlog, rfl⟩ := hph
    rw [hp]
    exact .inr ⟨by rw [hlog, issued_succ hc], .inl ⟨hw, .inl rfl⟩⟩
  · simp [hpc] at hph
    have hw : (if a = .timeSingle then { s.ctrl with lat := lat } else s.ctrl).waiting =
        s.ctrl.waiting := by
      split <;> rfl
    exact .inr ⟨hph.1, .inl ⟨hw.trans hph.2.1, .inr rfl⟩⟩

/-- The wait of command `k` returns once the helper has executed it. -/
lemma Busy.idle {k : ℕ} {c : Cmd} {s : Sys} (hb : Busy cmds k c s) (hw : s.ctrl.waiting = true) :
    Idle cmds (k + 1) s := by
  obtain ⟨-, -, ⟨hw', -⟩ | ⟨hlog, ⟨hw', -⟩ | ⟨hpc, -⟩⟩⟩ := hb
  · simp [hw] at hw'
  · simp [hw] at hw'
  · exact ⟨hpc, hw, hlog⟩

lemma Idle.inv_nextCmd {k : ℕ} {s : Sys} (hk : k ≤ cmds.length) (h : Idle cmds k s) :
    Inv cmds { s with ipc := nextCmd cmds k } := by
  unfold nextCmd
  split_ifs with hlt
  · exact ⟨hlt, h⟩
  · obtain rfl : k = cmds.length := by omega
    exact h

lemma lt_length_of_getElem? {k : ℕ} {c : Cmd} (hc : cmds[k]? = some c) : k < cmds.length :=
  (List.getElem?_eq_some_iff.mp hc).1

end Steps

/-! ## The invariant of every reachable state -/

section Safety

variable {cmds : List Cmd}

/-- **The issuer keeps the invariant.** Each write of the issuer is made while the helper spins
on a set `waiting`, except the one that clears it. -/
lemma issuerStep_inv {pinned : Option ℤ} {s s' : Sys} (hs : Inv cmds s)
    (h : issuerStep cmds pinned s = some s') : Inv cmds s' := by
  unfold issuerStep at h
  unfold Inv at hs
  cases hi : s.ipc <;> simp only [hi] at h hs
  case start =>
    cases h
    cases pinned <;> exact ⟨hs.1, rfl, hs.2⟩
  case pin =>
    cases h
    exact hs
  case create =>
    cases h
    exact ⟨hs.2.2, .inl ⟨rfl, hs.2.1⟩⟩
  case startWait =>
    obtain ⟨hw, h⟩ := Option.ite_none_right_eq_some.mp h
    cases h
    -- the helper has set `waiting`, so it is at its spin
    have hpc : s.hpc = .spin := by
      rcases hs.2 with ⟨-, hw'⟩ | ⟨hpc, -⟩
      · simp [hw] at hw'
      · exact hpc
    exact Idle.inv_nextCmd (Nat.zero_le _) ⟨hpc, hw, by rw [hs.1, issued, List.take_zero, List.map_nil]⟩
  case act k =>
    obtain ⟨c, hc, rfl⟩ := Option.map_eq_some_iff.mp h
    exact ⟨c, hc, hs.2, rfl⟩
  case pay k =>
    obtain ⟨c, hc, hidle, ha⟩ := hs
    simp only [hc, Option.map_some, Option.some.injEq] at h
    subst h
    exact ⟨c, hc, hidle, ha, rfl⟩
  case go k =>
    obtain ⟨c, hc, ⟨hpc, -, hlog⟩, ha, hp⟩ := hs
    simp only [hc, Option.map_some, Option.some.injEq] at h
    subst h
    -- clearing `waiting` hands command `k` to the helper
    have hb : Busy cmds k c
        { s with ctrl := { s.ctrl with waiting := false },
                 ipc := if c.primes then .work k else .wait k } :=
      ⟨ha, hp, .inl ⟨rfl, hlog, .inl hpc⟩⟩
    by_cases hpr : c.primes
    · simp only [Inv, hpr, if_true]
      exact ⟨c, hc, hb⟩
    · simp only [Inv, hpr]
      exact ⟨c, hc, hb⟩
  case work k =>
    cases h
    exact hs
  case wait k =>
    obtain ⟨hw, h⟩ := Option.ite_none_right_eq_some.mp h
    obtain ⟨c, hc, hb⟩ := hs
    simp only [hc, Option.map_some, Option.some.injEq] at h
    subst h
    have hidle := hb.idle hw
    have hk := lt_length_of_getElem? hc
    by_cases ht : c.timed
    · simp only [Inv, ht, if_true]
      exact ⟨hk, hidle⟩
    · simp only [ht, Bool.false_eq_true, if_false]
      exact Idle.inv_nextCmd hk hidle
  case readLat k =>
    cases h
    exact Idle.inv_nextCmd hs.1 hs.2
  case stopAct =>
    cases h
    exact ⟨hs, rfl⟩
  case stopGo =>
    cases h
    obtain ⟨⟨hpc, -, hlog⟩, ha⟩ := hs
    exact ⟨ha, hlog, .inl ⟨hpc, rfl⟩⟩
  case join =>
    obtain ⟨hd, h⟩ := Option.ite_none_right_eq_some.mp h
    cases h
    exact ⟨hd, hs.2.1⟩
  case fin => cases h

/-- **The helper keeps the invariant.** It takes no step while the issuer writes a command:
then it spins on a set `waiting`. -/
lemma helperStep_inv {lat : ℕ} {s s' : Sys} (hs : Inv cmds s) (h : helperStep lat s = some s') :
    Inv cmds s' := by
  have hrun : helperStep lat s ≠ none := fun hn => by rw [hn] at h; cases h
  have hblocked : ∀ k, Idle cmds k s → False := fun k hidle =>
    hrun (helperStep_eq_none (.inl ⟨hidle.1, hidle.2.1⟩))
  unfold Inv at hs ⊢
  rw [(helperStep_frame h).1]
  cases hi : s.ipc <;> simp only [hi] at hs ⊢
  case start => exact (hrun (helperStep_eq_none (.inr (.inl hs.1)))).elim
  case pin => exact (hrun (helperStep_eq_none (.inr (.inl hs.1)))).elim
  case create => exact (hrun (helperStep_eq_none (.inr (.inl hs.1)))).elim
  case startWait =>
    -- the one step of the helper here is its first `waiting = true`
    obtain ⟨hlog, ⟨hpc, -⟩ | ⟨hpc, hw⟩⟩ := hs
    · unfold Helper.helperStep at h
      simp only [hpc, Option.some.injEq] at h
      subst h
      exact ⟨hlog, .inr ⟨rfl, rfl⟩⟩
    · exact (hrun (helperStep_eq_none (.inl ⟨hpc, hw⟩))).elim
  case act k => exact (hblocked k hs.2).elim
  case pay k =>
    obtain ⟨_, _, hidle, _⟩ := hs
    exact (hblocked k hidle).elim
  case go k =>
    obtain ⟨_, _, hidle, _⟩ := hs
    exact (hblocked k hidle).elim
  case work k =>
    obtain ⟨c, hc, hb⟩ := hs
    exact ⟨c, hc, hb.helperStep hc h⟩
  case wait k =>
    obtain ⟨c, hc, hb⟩ := hs
    exact ⟨c, hc, hb.helperStep hc h⟩
  case readLat k => exact (hblocked (k + 1) hs.2).elim
  case stopAct => exact (hblocked _ hs).elim
  case stopGo => exact (hblocked _ hs.1).elim
  case join =>
    -- the helper reads `HELPER_STOP` and returns
    obtain ⟨ha, hlog, ⟨hpc, hw⟩ | hpc | hpc⟩ := hs
    · unfold Helper.helperStep at h
      simp only [hpc, hw, Bool.false_eq_true, if_false, Option.some.injEq] at h
      subst h
      exact ⟨ha, hlog, .inr (.inl rfl)⟩
    · unfold Helper.helperStep at h
      simp only [hpc, ha, if_true, Option.some.injEq] at h
      subst h
      exact ⟨ha, hlog, .inr (.inr rfl)⟩
    · exact (hrun (helperStep_eq_none (.inr (.inr hpc)))).elim
  case fin => exact (hrun (helperStep_eq_none (.inr (.inr hs.1)))).elim

/-- Every reachable state satisfies the invariant. -/
theorem Reachable.inv {pinned : Option ℤ} {s : Sys} (h : Reachable cmds pinned s) : Inv cmds s := by
  induction h with
  | init ctrl => exact ⟨rfl, rfl⟩
  | issuer _ hstep ih => exact issuerStep_inv ih hstep
  | helper lat _ hstep ih => exact helperStep_inv ih hstep

/-- **The handshake neither loses nor duplicates a command.** In every state of every
interleaving: (a) when the issuer writes `action` or `payload` of command `k`, or the
`HELPER_STOP` after the last one, the helper spins on a `waiting` it has set and has read
exactly the first `k` commands; (b) when the wait of command `k` returns, the helper has read
exactly the first `k + 1` commands, each once and with the action and payload written for it;
(c) when `pthread_join` returns, the helper has read every command and then `HELPER_STOP`.

**Proof sketch.** `Inv` holds of every reachable state (`Reachable.inv`); each part reads it
at the issuer's position. -/
theorem handshake_safe {pinned : Option ℤ} {s : Sys} (h : Reachable cmds pinned s) :
    (∀ k, (s.ipc = .act k ∨ s.ipc = .pay k ∨ s.ipc = .stopAct ∧ k = cmds.length) →
      s.hpc = .spin ∧ s.ctrl.waiting = true ∧ s.log = issued cmds k) ∧
    (∀ k, s.ipc = .wait k → s.ctrl.waiting = true →
      s.hpc = .spin ∧ s.log = issued cmds (k + 1)) ∧
    (s.ipc = .join → s.hpc = .done →
      s.ctrl.action = .helperStop ∧ s.log = issued cmds cmds.length) := by
  have hinv := h.inv
  unfold Inv at hinv
  refine ⟨fun k hk => ?_, fun k hk hw => ?_, fun hj _ => ?_⟩
  · rcases hk with hk | hk | ⟨hk, rfl⟩
    · rw [hk] at hinv
      exact hinv.2
    · rw [hk] at hinv
      obtain ⟨_, _, hidle, _⟩ := hinv
      exact hidle
    · rw [hk] at hinv
      exact hinv
  · rw [hk] at hinv
    obtain ⟨_, _, hb⟩ := hinv
    exact ⟨(hb.idle hw).1, (hb.idle hw).2.2⟩
  · rw [hj] at hinv
    exact ⟨hinv.1, hinv.2.1⟩

/-- A run of one `helper_thread_read_single` reaches the return of its wait, and there the
helper has read the command once. -/
theorem handshake_safe_readSingle :
    ∃ s, Reachable [.readSingle 7] none s ∧ s.ipc = .wait 0 ∧ s.ctrl.waiting = true ∧
      s.hpc = .spin ∧ s.log = issued [.readSingle 7] 1 := by
  have hs : Reachable [.readSingle 7] none
      ⟨⟨true, .readSingle, 7, 0, -1⟩, .wait 0, .spin, [(.readSingle, 7)]⟩ :=
    .helper 0 (.helper 0 (.helper 0 (.helper 0 (.helper 0 (.issuer (.issuer (.issuer (.issuer
      (.helper 0 (.issuer (.issuer (.init ⟨true, .helperStop, 0, 0, -1⟩) rfl) rfl) rfl) rfl) rfl)
      rfl) rfl) rfl) rfl) rfl) rfl) rfl
  exact ⟨_, hs, rfl, rfl, (handshake_safe hs).2.1 0 rfl rfl⟩

end Safety

end EvCache.Helper
