import EvCache.Lib.KStr
import Mathlib.Data.List.Basic
import Mathlib.Data.List.Perm.Basic

set_option autoImplicit false

/-!
# The `vcolor_km` command interface

`vcolor` steers the page-colour allocator of a patched kernel through `/proc/vcolor_km`.
The user tool (`src/src/vcolor.c`) writes `order c0 c1 ...`, the colours from hottest to
coldest, and `hot c`; the module's `vcolor_proc_write` (`src/kern_mods/vcolor_km`) parses
them into `vcolor_order` and `vcolor_hottest`, which the allocator reads.

## Model

The module's state is `vcolor_order`, `vcolor_hottest` and `vcolor_enabled`; the frame lists
that `flush`, `free` and the tagging command change, and `writer_comm`, are not modelled.
A write is its bytes, `copy_from_user` succeeds, and `kbuf` is read up to its first `NUL`.
The library functions are those of `EvCache.Lib.KStr`.

## Main definitions

* `EvCache.Vcolor.vcolorProcWrite` — `vcolor_proc_write`.
* `EvCache.Vcolor.writeOrder`, `EvCache.Vcolor.writeHot` — the bytes `write_order` and
  `write_hot` write.
* `EvCache.Vcolor.Reachable` — the states reached from `vcolor_core_init` by writes.

## Main results

* `EvCache.Vcolor.Reachable.orderInv` — in every reachable state `vcolor_order` is a
  permutation of the colours and `vcolor_hottest` its first entry.
* `EvCache.Vcolor.vcolorProcWrite_writeHot_front` — from a reachable state, `write_hot c` is
  accepted and moves `c` to the front.
* `EvCache.Vcolor.vcolorProcWrite_writeOrder_one` — an order of one colour is accepted.
* `EvCache.Vcolor.vcolorProcWrite_writeOrder_rejected` — an order of two colours or more is
  rejected: `kstrtoul` reads the rest of the line, not one token.

## References

* `src/src/vcolor.c`, lines 138-165; `src/kern_mods/vcolor_km/vcolor_km.c`, lines 57-143;
  `src/kern_mods/vcolor_km/vcolor.diff`, lines 392-404.
-/

namespace EvCache.Vcolor

open KStr

/-- `VCOLOR_MAX_COLORS` of `vcolor.h`. -/
def vcolorMaxColors : ℕ := 16

/-- `EINVAL`. -/
def einval : ℤ := 22

/-- The module state `vcolor_proc_write` reads and writes: `vcolor_order` (its
`VCOLOR_MAX_COLORS` entries), `vcolor_hottest` and `vcolor_enabled`. -/
structure KmState where
  order : List ℕ
  hottest : ℕ
  enabled : Bool
  deriving DecidableEq, Repr

/-- The state after `vcolor_core_init` and `vcolor_init`. -/
def vcolorCoreInit : KmState := ⟨List.range vcolorMaxColors, 0, false⟩

/-! ## The `order` command -/

/-- The variables of the token loop of the `order` command: whether it has failed
(`return -EINVAL`), `idx`, `used` and `vcolor_order`, written in place. -/
structure OrderScan where
  ok : Bool
  idx : ℕ
  used : List Bool
  order : List ℕ

/-- The token loop (`vcolor_km.c:87-101`) with `k` slots left: skip spaces, read a number
with `kstrtoul` from the rest of the line, store it, and skip the token. -/
def orderTokens : ℕ → List Char → OrderScan → OrderScan
  | 0, _, o => o
  | k + 1, p, o =>
    let p := skipSpaces p
    if p = [] then o
    else
      match kstrtoull p 0 with
      | .error _ => { o with ok := false }
      | .ok v =>
        if vcolorMaxColors ≤ v then { o with ok := false }
        else
          orderTokens k (p.dropWhile fun c => !isSpace c)
            ⟨o.ok, o.idx + 1, o.used.set v true, o.order.set o.idx v⟩

/-- Step `i` of the loop that fills the remaining slots with the unused colours in
increasing order (`vcolor_km.c:102-104`). -/
def fillStep (used : List Bool) (io : ℕ × List ℕ) (i : ℕ) : ℕ × List ℕ :=
  if io.1 < vcolorMaxColors ∧ used.getD i false = false then (io.1 + 1, io.2.set io.1 i)
  else io

/-- The `order` command on the text `p` after `order` (`vcolor_km.c:81-106`). -/
def orderCmd (s : KmState) (p : List Char) (count : ℕ) : ℤ × KmState :=
  let o := orderTokens vcolorMaxColors p
    ⟨true, 0, List.replicate vcolorMaxColors false, s.order⟩
  if o.ok = false then (-einval, { s with order := o.order })
  else
    let order := ((List.range vcolorMaxColors).foldl (fillStep o.used) (o.idx, o.order)).2
    (count, { s with order, hottest := order.getD 0 0 })

/-! ## The `hot` command -/

/-- The `hot` command (`vcolor_km.c:108-123`): a colour found at `pos > 0` moves to the front,
the entries before it one slot back; a colour not found is pushed at the front. -/
def hotCmd (s : KmState) (color : ℕ) : KmState :=
  if color < vcolorMaxColors then
    let pos := s.order.idxOf color
    let order :=
      if pos = 0 then s.order
      else if pos < vcolorMaxColors then color :: (s.order.take pos ++ s.order.drop (pos + 1))
      else color :: s.order.take (vcolorMaxColors - 1)
    { s with order, hottest := color }
  else s

/-! ## The write handler -/

/-- `vcolor_proc_write(f, buf, count, ppos)` (`vcolor_km.c:57`): the value it returns and the
state it leaves. -/
def vcolorProcWrite (s : KmState) (buf : List Char) : ℤ × KmState :=
  if 64 ≤ buf.length then (-einval, s)
  else
    let count := buf.length
    let kbuf := buf.takeWhile (· ≠ '\x00')
    if sysfsStreq kbuf "enable".toList then (count, { s with enabled := true })
    -- `vcolor_flush` disables the allocator and releases the frames
    else if sysfsStreq kbuf "disable".toList then (count, { s with enabled := false })
    else if sysfsStreq kbuf "flush".toList || sysfsStreq kbuf "clear".toList then
      (count, { s with enabled := true })
    else if "order".toList.isPrefixOf kbuf then orderCmd s (kbuf.drop 5) count
    else
      match vsscanf "hot %u".toList kbuf with
      | [color] => (count, hotCmd s color)
      | _ =>
        -- `free` and the tagging command change only frames
        if (vsscanf "free %u".toList kbuf).length = 1 then (count, s)
        else if (vsscanf "%lx %u".toList kbuf).length = 2 then (count, s)
        else (-einval, s)

/-- The states reached from `vcolor_core_init` by any writes. -/
inductive Reachable : KmState → Prop where
  | init : Reachable vcolorCoreInit
  | write {s : KmState} (buf : List Char) : Reachable s → Reachable (vcolorProcWrite s buf).2

/-! ## The user tool -/

/-- The bytes `write_order(order, n_colors)` (`vcolor.c:138`) writes: `order`, then ` %u`
for each colour, then a newline; `none` where they do not fit its 128-byte buffer. -/
def writeOrder (order : List ℕ) (n_colors : ℕ) : Option (List Char) :=
  let s := "order".toList ++ (List.range n_colors).flatMap fun i =>
    ' ' :: Nat.toDigits 10 (order.getD i 0)
  if s.length < 128 then some (s ++ ['\n']) else none

/-- The bytes `write_hot(color)` (`vcolor.c:154`) writes. -/
def writeHot (color : ℕ) : List Char := "hot ".toList ++ Nat.toDigits 10 color ++ ['\n']

/-! ## The `order` command, step by step -/

section Tokens

variable (k : ℕ) (o : OrderScan)

lemma orderTokens_of_skipSpaces_nil {p : List Char} (h : skipSpaces p = []) :
    orderTokens (k + 1) p o = o := by
  simp [orderTokens, h]

lemma orderTokens_of_error {p : List Char} (hne : skipSpaces p ≠ []) {e : Errno}
    (h : kstrtoull (skipSpaces p) 0 = .error e) : orderTokens (k + 1) p o = { o with ok := false } := by
  simp [orderTokens, hne, h]

lemma orderTokens_of_ge {p : List Char} (hne : skipSpaces p ≠ []) {v : ℕ}
    (h : kstrtoull (skipSpaces p) 0 = .ok v) (hv : vcolorMaxColors ≤ v) :
    orderTokens (k + 1) p o = { o with ok := false } := by
  simp [orderTokens, hne, h, hv]

/-- A token `kstrtoul` accepts is the rest of the line: it is stored and the loop stops. -/
lemma orderTokens_of_lt {p : List Char} (hne : skipSpaces p ≠ []) {v : ℕ}
    (h : kstrtoull (skipSpaces p) 0 = .ok v) (hv : v < vcolorMaxColors) :
    orderTokens (k + 1) p o = ⟨o.ok, o.idx + 1, o.used.set v true, o.order.set o.idx v⟩ := by
  have hstep : orderTokens (k + 1) p o = orderTokens k ((skipSpaces p).dropWhile fun c => !isSpace c)
      ⟨o.ok, o.idx + 1, o.used.set v true, o.order.set o.idx v⟩ := by
    simp [orderTokens, hne, h, Nat.not_le.mpr hv]
  obtain ⟨pre, r, hsplit, hpre, hr⟩ := kstrtoull_ok_split h
  have hrest : skipSpaces ((skipSpaces p).dropWhile fun c => !isSpace c) = [] := by
    rw [hsplit]
    exact skipSpaces_eq_nil_of_split hpre hr
  rw [hstep]
  cases k with
  | zero => rfl
  | succ k => exact orderTokens_of_skipSpaces_nil k _ hrest

/-- **One step of the token loop.** It reads no token, fails, or stores one colour and
stops: `kstrtoul` accepts a token only when it is the rest of the line, so nothing is left
for a second one. -/
lemma orderTokens_cases (p : List Char) :
    orderTokens (k + 1) p o = o ∨ orderTokens (k + 1) p o = { o with ok := false } ∨
    ∃ v < vcolorMaxColors, orderTokens (k + 1) p o =
      ⟨o.ok, o.idx + 1, o.used.set v true, o.order.set o.idx v⟩ := by
  by_cases hne : skipSpaces p = []
  · exact .inl (orderTokens_of_skipSpaces_nil k o hne)
  cases h : kstrtoull (skipSpaces p) 0 with
  | error e => exact .inr (.inl (orderTokens_of_error k o hne h))
  | ok v =>
    by_cases hv : vcolorMaxColors ≤ v
    · exact .inr (.inl (orderTokens_of_ge k o hne h hv))
    · exact .inr (.inr ⟨v, by omega, orderTokens_of_lt k o hne h (by omega)⟩)

/-- **The fill loop.** From slot `idx`, the colours of `is` not marked `used` are written in
order, as long as they fit in the `VCOLOR_MAX_COLORS` slots. -/
lemma foldl_fillStep (used : List Bool) (is : List ℕ) :
    ∀ (idx : ℕ) (ord : List ℕ), ord.length = vcolorMaxColors →
      idx + (is.filter fun i => !used.getD i false).length ≤ vcolorMaxColors →
      is.foldl (fillStep used) (idx, ord) =
        (idx + (is.filter fun i => !used.getD i false).length,
          ord.take idx ++ (is.filter fun i => !used.getD i false) ++
            ord.drop (idx + (is.filter fun i => !used.getD i false).length)) := by
  induction is with
  | nil => intro idx ord _ _; simp
  | cons a is ih =>
    intro idx ord hlen hle
    by_cases ha : used.getD a false = false
    · -- `a` is unused: it goes to slot `idx`
      have hf : ((a :: is).filter fun i => !used.getD i false) =
          a :: is.filter fun i => !used.getD i false := List.filter_cons_of_pos (by simpa using ha)
      rw [hf, List.length_cons] at hle
      have hlt : idx < ord.length := by omega
      have htake : (ord.set idx a).take (idx + 1) = ord.take idx ++ [a] := by
        rw [List.set_eq_take_append_cons_drop, if_pos hlt, List.take_append,
          List.length_take_of_le hlt.le, List.take_of_length_le (by simp), Nat.add_sub_cancel_left]
        rfl
      have hdrop : ∀ n, idx < n → (ord.set idx a).drop n = ord.drop n := fun n hn => by
        rw [List.drop_set, if_pos hn]
      rw [List.foldl_cons, fillStep, if_pos ⟨by omega, ha⟩,
        ih (idx + 1) _ (by rw [List.length_set, hlen]) (by omega), hf, hdrop _ (by omega), htake,
        List.length_cons, show idx + 1 + (is.filter fun i => !used.getD i false).length =
          idx + ((is.filter fun i => !used.getD i false).length + 1) by omega]
      simp only [List.append_assoc, List.singleton_append]
    · -- `a` is used: the step changes nothing
      have hf : ((a :: is).filter fun i => !used.getD i false) =
          is.filter fun i => !used.getD i false := List.filter_cons_of_neg (by simpa using ha)
      rw [List.foldl_cons, fillStep, if_neg fun h => ha h.2, hf]
      exact ih idx ord hlen (hf ▸ hle)

/-- The command fails as soon as the token loop fails, keeping what it wrote. -/
lemma orderCmd_of_not_ok (s : KmState) (p : List Char) (count : ℕ)
    (h : (orderTokens vcolorMaxColors p
      ⟨true, 0, List.replicate vcolorMaxColors false, s.order⟩).ok = false) :
    orderCmd s p count = (-einval, { s with order := (orderTokens vcolorMaxColors p
      ⟨true, 0, List.replicate vcolorMaxColors false, s.order⟩).order }) := by
  unfold orderCmd
  dsimp only
  rw [if_pos h]

/-- The marks `used` after the token loop stored `v`. -/
lemma getD_set_replicate {n v : ℕ} (hv : v < n) (i : ℕ) :
    ((List.replicate n false).set v true).getD i false = (i == v) := by
  by_cases hi : i = v
  · subst hi
    simp [List.getD_eq_getElem?_getD, hv]
  · by_cases hin : i < n <;>
      simp [List.getD_eq_getElem?_getD, Ne.symm hi, hi, hin]

/-- With no token, the fill loop writes every colour in increasing order. -/
lemma orderCmd_of_no_token (s : KmState) (hs : s.order.length = vcolorMaxColors) (p : List Char)
    (count : ℕ)
    (h : orderTokens vcolorMaxColors p ⟨true, 0, List.replicate vcolorMaxColors false, s.order⟩ =
      ⟨true, 0, List.replicate vcolorMaxColors false, s.order⟩) :
    orderCmd s p count =
      ((count : ℤ), { s with order := List.range vcolorMaxColors, hottest := 0 }) := by
  have hall : ((List.range vcolorMaxColors).filter fun i =>
      !(List.replicate vcolorMaxColors false).getD i false) = List.range vcolorMaxColors := by
    rfl
  have hfill := foldl_fillStep (List.replicate vcolorMaxColors false) (List.range vcolorMaxColors)
    0 s.order hs (by rw [hall, List.length_range, Nat.zero_add])
  rw [hall, List.length_range, Nat.zero_add, List.drop_of_length_le hs.le, List.take_zero,
    List.nil_append, List.append_nil] at hfill
  unfold orderCmd
  dsimp only
  rw [h, if_neg (by simp), hfill]
  rfl

/-- With one colour `v`, the fill loop writes the others after it in increasing order. -/
lemma orderCmd_of_one_token (s : KmState) (hs : s.order.length = vcolorMaxColors) (p : List Char)
    (count : ℕ) {v : ℕ} (hv : v < vcolorMaxColors)
    (h : orderTokens vcolorMaxColors p ⟨true, 0, List.replicate vcolorMaxColors false, s.order⟩ =
      ⟨true, 1, (List.replicate vcolorMaxColors false).set v true, s.order.set 0 v⟩) :
    orderCmd s p count =
      ((count : ℤ), { s with order := v :: (List.range vcolorMaxColors).erase v, hottest := v }) := by
  have hrest : ((List.range vcolorMaxColors).filter fun i =>
      !((List.replicate vcolorMaxColors false).set v true).getD i false) =
      (List.range vcolorMaxColors).erase v := by
    rw [List.Nodup.erase_eq_filter List.nodup_range]
    exact List.filter_congr fun i _ => by rw [getD_set_replicate hv]; rfl
  have hlen : ((List.range vcolorMaxColors).erase v).length = vcolorMaxColors - 1 := by
    rw [List.length_erase_of_mem (List.mem_range.mpr hv), List.length_range]
  have hset : (s.order.set 0 v).length = vcolorMaxColors := by rw [List.length_set, hs]
  have htake : (s.order.set 0 v).take 1 = [v] := by
    cases ho : s.order with
    | nil => simp [ho, vcolorMaxColors] at hs
    | cons a rest => rfl
  have hfill := foldl_fillStep ((List.replicate vcolorMaxColors false).set v true)
    (List.range vcolorMaxColors) 1 (s.order.set 0 v) hset (by rw [hrest, hlen]; decide)
  rw [hrest, hlen, htake, List.drop_of_length_le (by rw [hset]; decide), List.append_nil,
    List.singleton_append] at hfill
  unfold orderCmd
  dsimp only
  rw [h, if_neg (by simp), hfill]
  rfl

/-- **The `order` command** on a state with every slot: it fails and leaves the state as it
was, or writes the colours in increasing order, or one colour `v` and then the others. -/
lemma orderCmd_cases (s : KmState) (hs : s.order.length = vcolorMaxColors) (p : List Char)
    (count : ℕ) :
    orderCmd s p count = (-einval, s) ∨
    orderCmd s p count =
      ((count : ℤ), { s with order := List.range vcolorMaxColors, hottest := 0 }) ∨
    ∃ v < vcolorMaxColors, orderCmd s p count =
      ((count : ℤ), { s with order := v :: (List.range vcolorMaxColors).erase v, hottest := v }) := by
  rcases orderTokens_cases 15 ⟨true, 0, List.replicate vcolorMaxColors false, s.order⟩ p with
    h | h | ⟨v, hv, h⟩
  · exact .inr (.inl (orderCmd_of_no_token s hs p count h))
  · -- the loop failed on its first token, before writing
    have h' : orderTokens vcolorMaxColors p
        ⟨true, 0, List.replicate vcolorMaxColors false, s.order⟩ =
        ⟨false, 0, List.replicate vcolorMaxColors false, s.order⟩ := h
    exact .inl (by rw [orderCmd_of_not_ok s p count (by rw [h']), h'])
  · exact .inr (.inr ⟨v, hv, orderCmd_of_one_token s hs p count hv h⟩)

end Tokens

/-! ## Dispatch -/

section Dispatch

variable (s : KmState)

lemma cstr_of_no_nul {buf : List Char} (h : ∀ c ∈ buf, c ≠ '\x00') :
    buf.takeWhile (· ≠ '\x00') = buf :=
  List.takeWhile_eq_self_iff.mpr (by simpa using h)

/-- A write that starts with `order` reaches the `order` command. -/
lemma vcolorProcWrite_order {p : List Char} (hlen : ("order".toList ++ p).length < 64)
    (hnul : ∀ c ∈ p, c ≠ '\x00') :
    vcolorProcWrite s ("order".toList ++ p) = orderCmd s p ("order".toList ++ p).length := by
  have hword : ∀ c ∈ "order".toList, c ≠ '\x00' := by simp
  have hc : ("order".toList ++ p).takeWhile (· ≠ '\x00') = "order".toList ++ p := by
    refine cstr_of_no_nul fun c hc => ?_
    rcases List.mem_append.mp hc with hc | hc
    · exact hword c hc
    · exact hnul c hc
  unfold vcolorProcWrite
  rw [if_neg (by omega)]
  dsimp only
  rw [hc]
  -- the other commands are told apart by the first character
  rfl

end Dispatch

/-! ## `write_order` against the handler -/

/-- The bytes of `write_order` when they fit: `order`, a space and the digits of each colour,
then the newline. -/
lemma writeOrder_eq {order : List ℕ} {n_colors : ℕ} {buf : List Char}
    (h : writeOrder order n_colors = some buf) :
    buf = "order".toList ++ (((List.range n_colors).flatMap fun i =>
      ' ' :: Nat.toDigits 10 (order.getD i 0)) ++ ['\n']) := by
  unfold writeOrder at h
  dsimp only at h
  split_ifs at h
  rw [← List.append_assoc]
  exact (Option.some.inj h).symm

lemma ne_nul_of_mem_toDigits {c : Char} {n : ℕ} (h : c ∈ Nat.toDigits 10 n) : c ≠ '\x00' := by
  rintro rfl
  exact absurd (isDigit_of_mem_toDigits h) (by decide)

/-- What `write_order` writes after `order` holds no `NUL`. -/
lemma ne_nul_of_mem_writeOrder {order : List ℕ} {n_colors : ℕ} {c : Char}
    (hc : c ∈ ((List.range n_colors).flatMap fun i => ' ' :: Nat.toDigits 10 (order.getD i 0)) ++
      ['\n']) : c ≠ '\x00' := by
  simp only [List.mem_append, List.mem_flatMap, List.mem_cons, List.not_mem_nil, or_false] at hc
  rcases hc with ⟨i, -, rfl | hc⟩ | rfl
  · decide
  · exact ne_nul_of_mem_toDigits hc
  · decide

/-- With two colours or more, the text after `order` is a space, the first colour, a space
and more. -/
lemma writeOrder_tail (order : List ℕ) (m : ℕ) :
    ∃ x, ((List.range (m + 2)).flatMap fun i => ' ' :: Nat.toDigits 10 (order.getD i 0)) ++
      ['\n'] = ' ' :: (Nat.toDigits 10 (order.getD 0 0) ++ ' ' :: x) := by
  refine ⟨Nat.toDigits 10 (order.getD 1 0) ++
    (((List.range' 2 m).flatMap fun i => ' ' :: Nat.toDigits 10 (order.getD i 0)) ++ ['\n']), ?_⟩
  rw [List.range_eq_range', List.range'_succ, List.range'_succ]
  simp only [List.flatMap_cons, List.cons_append, List.append_assoc]

/-- **An order of two colours or more is rejected.** From any state, the bytes
`write_order(order, n_colors)` writes for `n_colors ≥ 2` make `vcolor_proc_write` return
`-EINVAL` and leave the state as it was: `kstrtoul` reads the first colour from the rest of
the line, which goes on with a space and the next colour. -/
theorem vcolorProcWrite_writeOrder_rejected (s : KmState) (order : List ℕ) {n_colors : ℕ}
    (hn : 2 ≤ n_colors) {buf : List Char} (hbuf : writeOrder order n_colors = some buf) :
    vcolorProcWrite s buf = (-einval, s) := by
  obtain ⟨m, rfl⟩ : ∃ m, n_colors = m + 2 := ⟨n_colors - 2, by omega⟩
  have hb := writeOrder_eq hbuf
  obtain ⟨x, hx⟩ := writeOrder_tail order m
  by_cases hlen : 64 ≤ buf.length
  · simp [vcolorProcWrite, hlen]
  rw [hb, vcolorProcWrite_order s (by rw [← hb]; omega) (fun c hc => ne_nul_of_mem_writeOrder hc),
    hx]
  -- the token loop fails on its first token: the rest of the line holds a space
  have hsk : skipSpaces (' ' :: (Nat.toDigits 10 (order.getD 0 0) ++ ' ' :: x)) =
      Nat.toDigits 10 (order.getD 0 0) ++ ' ' :: x := by
    rw [skipSpaces_cons_of_isSpace _ rfl, skipSpaces_toDigits_append]
  obtain ⟨e, he⟩ : ∃ e, kstrtoull (skipSpaces (' ' :: (Nat.toDigits 10 (order.getD 0 0) ++
      ' ' :: x))) 0 = .error e :=
    kstrtoull_error_of_mem_space (c := ' ') (by rw [hsk]; simp) rfl (by decide)
  have htok : orderTokens vcolorMaxColors (' ' :: (Nat.toDigits 10 (order.getD 0 0) ++ ' ' :: x))
      ⟨true, 0, List.replicate vcolorMaxColors false, s.order⟩ =
      ⟨false, 0, List.replicate vcolorMaxColors false, s.order⟩ :=
    orderTokens_of_error 15 _ (by rw [hsk]; simp) he
  rw [orderCmd_of_not_ok _ _ _ (by rw [htok]), htok]

/-- The tool's order `1 0` for two colours, written to the module after `vcolor_core_init`. -/
theorem vcolorProcWrite_writeOrder_rejected_init :
    writeOrder [1, 0] 2 = some "order 1 0\n".toList ∧
      vcolorProcWrite vcolorCoreInit "order 1 0\n".toList = (-einval, vcolorCoreInit) :=
  ⟨rfl, vcolorProcWrite_writeOrder_rejected vcolorCoreInit [1, 0] (le_refl 2) rfl⟩

/-- With one colour, `write_order` is accepted: the colour first, the others after it in
increasing order. -/
theorem vcolorProcWrite_writeOrder_one (s : KmState) (hs : s.order.length = vcolorMaxColors)
    {c : ℕ} (rest : List ℕ) (hc : c < vcolorMaxColors) {buf : List Char}
    (hbuf : writeOrder (c :: rest) 1 = some buf) :
    vcolorProcWrite s buf =
      ((buf.length : ℤ),
        { s with order := c :: (List.range vcolorMaxColors).erase c, hottest := c }) := by
  have hb := writeOrder_eq hbuf
  have htail : ((List.range 1).flatMap fun i => ' ' :: Nat.toDigits 10 ((c :: rest).getD i 0)) ++
      ['\n'] = ' ' :: (Nat.toDigits 10 c ++ ['\n']) := by simp
  have hdig : (Nat.toDigits 10 c).length ≤ 2 :=
    Nat.toDigits_length 10 c 2 (by norm_num) (lt_trans hc (by decide))
  have hlen : buf.length < 64 := by
    rw [hb, htail, List.length_append, List.length_cons, List.length_append]
    simp only [List.length_singleton]
    have : "order".toList.length = 5 := rfl
    omega
  rw [hb, vcolorProcWrite_order s (by rw [← hb]; exact hlen)
    (fun ch hch => ne_nul_of_mem_writeOrder hch), htail]
  -- the single token is the rest of the line
  have hsk : skipSpaces (' ' :: (Nat.toDigits 10 c ++ ['\n'])) = Nat.toDigits 10 c ++ ['\n'] := by
    rw [skipSpaces_cons_of_isSpace _ rfl, skipSpaces_toDigits_append]
  have htok : orderTokens vcolorMaxColors (' ' :: (Nat.toDigits 10 c ++ ['\n']))
      ⟨true, 0, List.replicate vcolorMaxColors false, s.order⟩ =
      ⟨true, 1, (List.replicate vcolorMaxColors false).set c true, s.order.set 0 c⟩ :=
    orderTokens_of_lt 15 _ (by rw [hsk]; simp)
      (by rw [hsk]; exact kstrtoull_toDigits (lt_trans hc (by decide)) (.inr rfl)) hc
  exact orderCmd_of_one_token s hs _ _ hc htok

/-- The tool's order `3` for one colour, written to the module after `vcolor_core_init`. -/
theorem vcolorProcWrite_writeOrder_one_init :
    writeOrder [3] 1 = some "order 3\n".toList ∧
      vcolorProcWrite vcolorCoreInit "order 3\n".toList =
        (("order 3\n".toList.length : ℤ), { vcolorCoreInit with
          order := 3 :: (List.range vcolorMaxColors).erase 3, hottest := 3 }) :=
  ⟨rfl, vcolorProcWrite_writeOrder_one vcolorCoreInit rfl [] (by decide) rfl⟩

/-! ## `write_hot` against the handler -/

lemma vsscanf_writeHot (n : ℕ) : vsscanf "hot %u".toList (writeHot n) = [n % 2 ^ 64 % 2 ^ 32] := by
  calc vsscanf "hot %u".toList (writeHot n)
      = vsscanf ['%', 'u'] (skipSpaces (Nat.toDigits 10 n ++ ['\n'])) := rfl
    _ = [n % 2 ^ 64 % 2 ^ 32] := by
      rw [skipSpaces_toDigits_append]
      exact vsscanf_u n (.inr rfl)

lemma length_writeHot_lt {c : ℕ} (hc : c < 2 ^ 32) : (writeHot c).length < 64 := by
  have hdig : (Nat.toDigits 10 c).length ≤ 10 :=
    Nat.toDigits_length 10 c 10 (by norm_num) (lt_of_lt_of_le hc (by norm_num))
  have : "hot ".toList.length = 4 := rfl
  show ("hot ".toList ++ Nat.toDigits 10 c ++ ['\n']).length < 64
  simp only [List.length_append, List.length_singleton]
  omega

/-- **`write_hot c` reaches the `hot` command** with the colour it printed. -/
theorem vcolorProcWrite_writeHot (s : KmState) {c : ℕ} (hc : c < 2 ^ 32) :
    vcolorProcWrite s (writeHot c) = (((writeHot c).length : ℤ), hotCmd s c) := by
  have hword : ∀ ch ∈ "hot ".toList, ch ≠ '\x00' := by simp
  have hnul : (writeHot c).takeWhile (· ≠ '\x00') = writeHot c := by
    refine cstr_of_no_nul fun ch hch => ?_
    rcases List.mem_append.mp hch with hch | hch
    · rcases List.mem_append.mp hch with hch | hch
      · exact hword ch hch
      · exact ne_nul_of_mem_toDigits hch
    · rw [List.mem_singleton.mp hch]
      decide
  unfold vcolorProcWrite
  rw [if_neg (Nat.not_le.mpr (length_writeHot_lt hc))]
  dsimp only
  rw [hnul, vsscanf_writeHot, Nat.mod_eq_of_lt (lt_of_lt_of_le hc (by norm_num)),
    Nat.mod_eq_of_lt hc]
  -- the other commands are told apart by the first character
  rfl

/-! ## Reachable states -/

/-- **The invariant of the module state**: `vcolor_order` is a permutation of the colours
and `vcolor_hottest` its first entry. -/
structure OrderInv (s : KmState) : Prop where
  perm : s.order.Perm (List.range vcolorMaxColors)
  head : s.order.head? = some s.hottest

lemma OrderInv.length {s : KmState} (h : OrderInv s) : s.order.length = vcolorMaxColors := by
  simpa using h.perm.length_eq

lemma orderInv_init : OrderInv vcolorCoreInit := ⟨List.Perm.refl _, rfl⟩

lemma orderCmd_orderInv {s : KmState} (hs : OrderInv s) (p : List Char) (count : ℕ) :
    OrderInv (orderCmd s p count).2 := by
  rcases orderCmd_cases s hs.length p count with h | h | ⟨v, hv, h⟩ <;> rw [h]
  · exact hs
  · exact ⟨List.Perm.refl _, rfl⟩
  · exact ⟨(List.perm_cons_erase (List.mem_range.mpr hv)).symm, rfl⟩

lemma eq_cons_erase_of_idxOf_eq_zero {l : List ℕ} {c : ℕ} (hc : c ∈ l) (h : l.idxOf c = 0) :
    l = c :: l.erase c := by
  cases l with
  | nil => simp at hc
  | cons a rest =>
    by_cases hac : a = c
    · subst hac
      simp
    · simp [hac] at h

/-- **The `hot` command** on an order holding every colour moves `c` to the front, whether
`c` was first (`pos = 0`) or not: `memmove` shifts the entries before it. -/
lemma hotCmd_of_lt {s : KmState} (hs : OrderInv s) {c : ℕ} (hc : c < vcolorMaxColors) :
    hotCmd s c = { s with order := c :: s.order.erase c, hottest := c } := by
  have hmem : c ∈ s.order := hs.perm.mem_iff.mpr (List.mem_range.mpr hc)
  have hpos : s.order.idxOf c < vcolorMaxColors :=
    hs.length ▸ List.idxOf_lt_length_of_mem hmem
  unfold hotCmd
  rw [if_pos hc]
  dsimp only
  split_ifs with h0
  · rw [← eq_cons_erase_of_idxOf_eq_zero hmem h0]
  · rw [← List.eraseIdx_eq_take_drop_succ, ← List.erase_eq_eraseIdx_of_idxOf rfl]

lemma hotCmd_orderInv {s : KmState} (hs : OrderInv s) (c : ℕ) : OrderInv (hotCmd s c) := by
  by_cases hc : c < vcolorMaxColors
  · have hmem : c ∈ s.order := hs.perm.mem_iff.mpr (List.mem_range.mpr hc)
    rw [hotCmd_of_lt hs hc]
    exact ⟨(List.perm_cons_erase hmem).symm.trans hs.perm, rfl⟩
  · unfold hotCmd
    rw [if_neg hc]
    exact hs

/-- **What one write can do**: leave the state, switch the allocator, run the `order`
command or run the `hot` command. -/
lemma vcolorProcWrite_cases (s : KmState) (buf : List Char) :
    (vcolorProcWrite s buf).2 = s ∨ (∃ b, (vcolorProcWrite s buf).2 = { s with enabled := b }) ∨
    (∃ p count, vcolorProcWrite s buf = orderCmd s p count) ∨
    ∃ c, (vcolorProcWrite s buf).2 = hotCmd s c := by
  unfold vcolorProcWrite
  dsimp only
  by_cases h64 : 64 ≤ buf.length
  · rw [if_pos h64]
    exact .inl rfl
  rw [if_neg h64]
  by_cases he : sysfsStreq (buf.takeWhile (· ≠ '\x00')) "enable".toList
  · rw [if_pos he]
    exact .inr (.inl ⟨true, rfl⟩)
  rw [if_neg he]
  by_cases hd : sysfsStreq (buf.takeWhile (· ≠ '\x00')) "disable".toList
  · rw [if_pos hd]
    exact .inr (.inl ⟨false, rfl⟩)
  rw [if_neg hd]
  by_cases hf : (sysfsStreq (buf.takeWhile (· ≠ '\x00')) "flush".toList ||
      sysfsStreq (buf.takeWhile (· ≠ '\x00')) "clear".toList)
  · rw [if_pos hf]
    exact .inr (.inl ⟨true, rfl⟩)
  rw [if_neg hf]
  by_cases ho : "order".toList.isPrefixOf (buf.takeWhile (· ≠ '\x00'))
  · rw [if_pos ho]
    exact .inr (.inr (.inl ⟨_, _, rfl⟩))
  rw [if_neg ho]
  split
  · exact .inr (.inr (.inr ⟨_, rfl⟩))
  -- `free`, the tagging command and the error leave the state
  · split_ifs <;> exact .inl rfl

lemma vcolorProcWrite_orderInv {s : KmState} (hs : OrderInv s) (buf : List Char) :
    OrderInv (vcolorProcWrite s buf).2 := by
  rcases vcolorProcWrite_cases s buf with h | ⟨b, h⟩ | ⟨p, count, h⟩ | ⟨c, h⟩
  · rw [h]
    exact hs
  · rw [h]
    exact ⟨hs.perm, hs.head⟩
  · rw [h]
    exact orderCmd_orderInv hs p count
  · rw [h]
    exact hotCmd_orderInv hs c

/-- **The invariant holds in every reachable state**, whatever was written. -/
theorem Reachable.orderInv {s : KmState} (h : Reachable s) : OrderInv s := by
  induction h with
  | init => exact orderInv_init
  | write buf _ ih => exact vcolorProcWrite_orderInv ih buf

/-- **`write_hot c` from a reachable state** is accepted and makes `c` the first colour and
the hottest, the order staying a permutation. -/
theorem vcolorProcWrite_writeHot_front {s : KmState} (hs : Reachable s) {c : ℕ}
    (hc : c < vcolorMaxColors) :
    (vcolorProcWrite s (writeHot c)).1 = ((writeHot c).length : ℤ) ∧
      OrderInv (vcolorProcWrite s (writeHot c)).2 ∧
      (vcolorProcWrite s (writeHot c)).2.order.head? = some c ∧
      (vcolorProcWrite s (writeHot c)).2.hottest = c := by
  rw [vcolorProcWrite_writeHot s (lt_trans hc (by decide))]
  refine ⟨rfl, hotCmd_orderInv hs.orderInv c, ?_, ?_⟩
  · rw [hotCmd_of_lt hs.orderInv hc]
    rfl
  · rw [hotCmd_of_lt hs.orderInv hc]

/-- `write_hot 3` right after `vcolor_core_init`. -/
theorem vcolorProcWrite_writeHot_front_init :
    (vcolorProcWrite vcolorCoreInit (writeHot 3)).1 = ((writeHot 3).length : ℤ) ∧
      OrderInv (vcolorProcWrite vcolorCoreInit (writeHot 3)).2 ∧
      (vcolorProcWrite vcolorCoreInit (writeHot 3)).2.order.head? = some 3 ∧
      (vcolorProcWrite vcolorCoreInit (writeHot 3)).2.hottest = 3 :=
  vcolorProcWrite_writeHot_front .init (by decide)

end EvCache.Vcolor
