import Mathlib.Data.List.Basic
import Mathlib.Data.List.TakeWhile
import Mathlib.Data.Nat.Digits.Defs

set_option autoImplicit false

/-!
# Kernel string helpers

The parsing functions of the Linux kernel's `lib/` that a `/proc` write handler uses, over C
strings as lists of characters (each character one byte, the terminating `NUL` not part of
the list).

## Main definitions

* `KStr.isSpace`, `KStr.skipSpaces` — `isspace` and `skip_spaces`.
* `KStr.sysfsStreq` — `sysfs_streq`: equality up to one trailing newline.
* `KStr.fixupRadix`, `KStr.digitPrefix`, `KStr.digitsValue` — `_parse_integer_fixup_radix`
  and `_parse_integer`.
* `KStr.kstrtoull` — `kstrtoull`, which accepts a number only if nothing but one newline
  follows it.
* `KStr.simpleStrntoull`, `KStr.vsscanf` — `simple_strntoull`, and `vsscanf` for literals,
  white space and the conversions `%u`, `%x`, `%lu`, `%lx`.

## Main results

* `KStr.kstrtoull_ok_split` — an accepted string is a run of non-space characters followed
  by nothing or by one newline.
* `KStr.kstrtoull_error_of_mem_space` — nor is a string with another space.
* `KStr.kstrtoull_toDigits` — the decimal digits of a number, with or without a newline,
  are accepted with that value.
* `KStr.vsscanf_u` — `%u` reads back a printed number.

## Implementation notes

`_parse_integer` detects overflow on the fly; as the partial values only grow, this is the
exact value reaching `2 ^ 64`, which is how `parseTail` is stated. `simple_strntoull`
ignores the overflow and keeps the value modulo `2 ^ 64`. `vsscanf` ends the scan at a
conversion it does not support here, as it does at an unknown one. `isdigit` is
`Char.isDigit`.
-/

namespace KStr

/-- The errors of `kstrtoull`. -/
inductive Errno where
  | einval
  | erange
  deriving DecidableEq, Repr

/-- `isspace` of the kernel's `ctype` table: the six ASCII spaces and the no-break
space `0xA0`. -/
def isSpace (c : Char) : Bool :=
  c = ' ' || c = '\t' || c = '\n' || c = '\x0b' || c = '\x0c' || c = '\r' || c.toNat = 0xA0

/-- `isxdigit`. -/
def isXDigit (c : Char) : Bool :=
  c.isDigit || ('a' ≤ c && c ≤ 'f') || ('A' ≤ c && c ≤ 'F')

/-- `skip_spaces`. -/
def skipSpaces (s : List Char) : List Char := s.dropWhile isSpace

/-- `sysfs_streq(s1, s2)`: the strings are equal, or equal once a single trailing newline of
either is dropped. -/
def sysfsStreq : List Char → List Char → Bool
  | [], [] => true
  | [], ['\n'] => true
  | ['\n'], [] => true
  | c :: s₁, d :: s₂ => c = d && sysfsStreq s₁ s₂
  | _, _ => false

/-- `_tolower(c)`, which sets bit `5`. -/
def toLowerBits (c : Char) : ℕ := c.toNat ||| 0x20

/-- The value of `c` as a digit of `_parse_integer`: `0-9`, then `a-f` in either case. -/
def digitVal (c : Char) : Option ℕ :=
  if '0'.toNat ≤ c.toNat ∧ c.toNat ≤ '9'.toNat then some (c.toNat - '0'.toNat)
  else if 'a'.toNat ≤ toLowerBits c ∧ toLowerBits c ≤ 'f'.toNat then
    some (toLowerBits c - 'a'.toNat + 10)
  else none

/-- The optional `+` that `kstrtoull` skips. -/
def skipPlus : List Char → List Char
  | '+' :: s => s
  | s => s

/-- The base `_parse_integer_fixup_radix(s, &base)` settles on: base `0` becomes `16` before
`0x` and a hex digit, `8` before another leading `0`, and `10` otherwise. -/
def fixupBase (base : ℕ) (s : List Char) : ℕ :=
  if base = 0 then
    match s with
    | '0' :: c :: d :: _ => if toLowerBits c = 'x'.toNat ∧ isXDigit d then 16 else 8
    | '0' :: _ => 8
    | _ => 10
  else base

/-- `_parse_integer_fixup_radix(s, &base)`: the base, and the string with a `0x` skipped in
base `16`. -/
def fixupRadix (base : ℕ) (s : List Char) : ℕ × List Char :=
  let base := fixupBase base s
  match s with
  | '0' :: c :: rest => if base = 16 ∧ toLowerBits c = 'x'.toNat then (base, rest) else (base, s)
  | _ => (base, s)

/-- The digits `_parse_integer` reads: the longest prefix of digits below `base`. -/
def digitPrefix (base : ℕ) (s : List Char) : List Char :=
  s.takeWhile fun c => (digitVal c).any (· < base)

/-- The value `_parse_integer` accumulates, `res = res * base + val`, without overflow. -/
def digitsValue (base : ℕ) (cs : List Char) : ℕ :=
  cs.foldl (fun acc c => acc * base + (digitVal c).getD 0) 0

/-- `_kstrtoull` after the radix fixup: the digits of `s` in `base`, then at most one
newline. -/
def parseTail (base : ℕ) (s : List Char) : Except Errno ℕ :=
  let cs := digitPrefix base s
  if 2 ^ 64 ≤ digitsValue base cs then .error .erange
  else if cs = [] then .error .einval
  else
    match s.drop cs.length with
    | [] | ['\n'] => .ok (digitsValue base cs)
    | _ => .error .einval

/-- `kstrtoull(s, base, &res)`, which is `kstrtoul` on a 64-bit kernel. -/
def kstrtoull (s : List Char) (base : ℕ) : Except Errno ℕ :=
  parseTail (fixupRadix base (skipPlus s)).1 (fixupRadix base (skipPlus s)).2

/-- `simple_strntoull(s, &next, base, INT_MAX)`: the value modulo `2 ^ 64` and the rest. -/
def simpleStrntoull (base : ℕ) (s : List Char) : ℕ × List Char :=
  let f := fixupRadix base s
  let cs := digitPrefix f.1 f.2
  (digitsValue f.1 cs % 2 ^ 64, f.2.drop cs.length)

/-- One integer conversion of `vsscanf`: `conv` is `u` (base `10`) or `x`, `X` (base `16`),
`wide` for the `l` qualifier; `none` ends the scan. -/
def scanConv (wide : Bool) (conv : Char) (str : List Char) : Option (ℕ × List Char) :=
  if str = [] then none
  else
    let base := if conv = 'u' then some 10 else if conv = 'x' ∨ conv = 'X' then some 16 else none
    match base, skipSpaces str with
    | some base, d :: rest =>
      if (base = 16 ∧ isXDigit d = false) ∨ (base = 10 ∧ d.isDigit = false) then none
      else
        let r := simpleStrntoull base (d :: rest)
        some (if wide then r.1 else r.1 % 2 ^ 32, r.2)
    | _, _ => none

/-- `vsscanf(str, fmt, ...)`: the values converted, in order; `sscanf` returns their number.
White space in the format matches any run of white space in the input. -/
def vsscanf : List Char → List Char → List ℕ
  | [], _ => []
  | '%' :: 'l' :: conv :: fmt, str =>
    match scanConv true conv str with
    | some (v, str) => v :: vsscanf fmt str
    | none => []
  | '%' :: conv :: fmt, str =>
    match scanConv false conv str with
    | some (v, str) => v :: vsscanf fmt str
    | none => []
  | f :: fmt, str =>
    if isSpace f then vsscanf fmt (skipSpaces str)
    else
      match str with
      | c :: str => if f = c then vsscanf fmt str else []
      | [] => []

/-! ## Characters -/

lemma toNat_of_isSpace {c : Char} (h : isSpace c = true) :
    c.toNat = 32 ∨ c.toNat = 9 ∨ c.toNat = 10 ∨ c.toNat = 11 ∨ c.toNat = 12 ∨
      c.toNat = 13 ∨ c.toNat = 160 := by
  simp only [isSpace, Bool.or_eq_true, decide_eq_true_eq] at h
  rcases h with ((((((rfl | rfl) | rfl) | rfl) | rfl) | rfl) | h)
  all_goals simp_all

lemma isSpace_of_isDigit {c : Char} (h : c.isDigit = true) : isSpace c = false := by
  have hd := Char.isDigit_iff_toNat.mp h
  simp only [Char.reduceToNat] at hd
  cases hs : isSpace c
  · rfl
  · rcases toNat_of_isSpace hs with h' | h' | h' | h' | h' | h' | h' <;> omega

lemma isSpace_of_digitVal {c : Char} {v : ℕ} (h : digitVal c = some v) : isSpace c = false := by
  cases hs : isSpace c
  · rfl
  · -- a space is neither a digit nor, with bit `5` set, a letter `a-f`
    unfold digitVal at h
    rcases toNat_of_isSpace hs with h' | h' | h' | h' | h' | h' | h' <;>
      simp [toLowerBits, h'] at h

lemma skipSpaces_cons_of_isSpace {c : Char} (s : List Char) (h : isSpace c = true) :
    skipSpaces (c :: s) = skipSpaces s := by
  simp [skipSpaces, h]

lemma skipSpaces_cons_of_not_isSpace {c : Char} (s : List Char) (h : isSpace c = false) :
    skipSpaces (c :: s) = c :: s := by
  simp [skipSpaces, h]

lemma skipSpaces_eq_nil_of_split {pre r : List Char} (hpre : ∀ c ∈ pre, isSpace c = false)
    (hr : r = [] ∨ r = ['\n']) :
    skipSpaces ((pre ++ r).dropWhile fun c => !isSpace c) = [] := by
  rw [List.dropWhile_append_of_pos (by simpa using hpre)]
  rcases hr with rfl | rfl <;> rfl

/-! ## Reading a number -/

lemma digitPrefix_append (base : ℕ) (s : List Char) :
    digitPrefix base s ++ s.drop (digitPrefix base s).length = s := by
  exact List.prefix_iff_eq_append.mp (List.takeWhile_prefix _)

lemma isSpace_of_mem_digitPrefix {base : ℕ} {s : List Char} {c : Char}
    (h : c ∈ digitPrefix base s) : isSpace c = false := by
  have hc := List.mem_takeWhile_imp h
  cases hv : digitVal c with
  | none => simp [hv] at hc
  | some v => exact isSpace_of_digitVal hv

lemma skipPlus_split (s : List Char) :
    ∃ pre, s = pre ++ skipPlus s ∧ ∀ c ∈ pre, isSpace c = false := by
  match s with
  | '+' :: t => exact ⟨['+'], rfl, by simp [isSpace]⟩
  | [] => exact ⟨[], rfl, by simp⟩
  | c :: t =>
    by_cases hc : c = '+'
    · subst hc
      exact ⟨['+'], rfl, by simp [isSpace]⟩
    · exact ⟨[], by simp [skipPlus, hc], by simp⟩

lemma isSpace_of_toLowerBits_x {c : Char} (h : toLowerBits c = 'x'.toNat) : isSpace c = false := by
  cases hs : isSpace c
  · rfl
  · rcases toNat_of_isSpace hs with h' | h' | h' | h' | h' | h' | h' <;>
      simp [toLowerBits, h'] at h

/-- `fixupRadix` leaves the string, or skips `0x` or `0X`. -/
lemma fixupRadix_snd (base : ℕ) (s : List Char) : (fixupRadix base s).2 = s ∨
    ∃ c, s = '0' :: c :: (fixupRadix base s).2 ∧ toLowerBits c = 'x'.toNat := by
  unfold fixupRadix
  dsimp only
  split
  · split_ifs with h
    · exact .inr ⟨_, rfl, h.2⟩
    · exact .inl rfl
  · exact .inl rfl

/-- What `fixupRadix` skips is no space. -/
lemma fixupRadix_split (base : ℕ) (s : List Char) :
    ∃ pre, s = pre ++ (fixupRadix base s).2 ∧ ∀ c ∈ pre, isSpace c = false := by
  rcases fixupRadix_snd base s with h | ⟨c, h, hc⟩
  · exact ⟨[], by rw [h]; rfl, by simp⟩
  · refine ⟨['0', c], h, ?_⟩
    intro d hd
    simp only [List.mem_cons, List.not_mem_nil, or_false] at hd
    rcases hd with rfl | rfl
    · rfl
    · exact isSpace_of_toLowerBits_x hc

lemma parseTail_ok_split {base v : ℕ} {s : List Char} (h : parseTail base s = .ok v) :
    s.drop (digitPrefix base s).length = [] ∨ s.drop (digitPrefix base s).length = ['\n'] := by
  unfold parseTail at h
  dsimp only at h
  split_ifs at h
  split at h
  · exact .inl ‹_›
  · exact .inr ‹_›
  · cases h

/-- **An accepted string.** What `kstrtoull` accepts is a run of non-space characters (the
sign, the radix prefix and the digits) followed by nothing or one newline. -/
theorem kstrtoull_ok_split {s : List Char} {base v : ℕ} (h : kstrtoull s base = .ok v) :
    ∃ pre r, s = pre ++ r ∧ (∀ c ∈ pre, isSpace c = false) ∧ (r = [] ∨ r = ['\n']) := by
  obtain ⟨p₁, hs₁, hp₁⟩ := skipPlus_split s
  obtain ⟨p₂, hs₂, hp₂⟩ := fixupRadix_split base (skipPlus s)
  set f := fixupRadix base (skipPlus s)
  refine ⟨p₁ ++ p₂ ++ digitPrefix f.1 f.2, f.2.drop (digitPrefix f.1 f.2).length, ?_, ?_,
    parseTail_ok_split h⟩
  · -- the sign, then the radix prefix, then the digits and the rest
    rw [List.append_assoc, List.append_assoc, digitPrefix_append, ← hs₂, ← hs₁]
  · intro c hc
    simp only [List.mem_append] at hc
    rcases hc with (hc | hc) | hc
    · exact hp₁ c hc
    · exact hp₂ c hc
    · exact isSpace_of_mem_digitPrefix hc

/-- **A space ends nothing.** A string with a space other than its final newline is not
accepted by `kstrtoull`. -/
theorem kstrtoull_error_of_mem_space {s : List Char} {base : ℕ} {c : Char} (hc : c ∈ s)
    (hsp : isSpace c = true) (hnl : c ≠ '\n') : ∃ e, kstrtoull s base = .error e := by
  cases h : kstrtoull s base with
  | error e => exact ⟨e, rfl⟩
  | ok v =>
    obtain ⟨pre, r, rfl, hpre, hr⟩ := kstrtoull_ok_split h
    rcases List.mem_append.mp hc with hc | hc
    · exact absurd (hpre c hc) (by simp [hsp])
    · rcases hr with rfl | rfl
      · simp at hc
      · exact absurd (List.mem_singleton.mp hc) hnl

/-! ## Printed numbers -/

lemma isDigit_of_mem_toDigits {c : Char} {n : ℕ} (h : c ∈ Nat.toDigits 10 n) : c.isDigit = true :=
  Nat.isDigit_of_mem_toDigits (by norm_num) (by norm_num) h

lemma digitVal_of_isDigit {c : Char} (h : c.isDigit = true) :
    digitVal c = some (c.toNat - '0'.toNat) := by
  unfold digitVal
  rw [if_pos (Char.isDigit_iff_toNat.mp h)]

/-- The printed digits start with a digit. -/
lemma toDigits_eq_cons (n : ℕ) : ∃ d t, Nat.toDigits 10 n = d :: t ∧ d.isDigit = true := by
  cases h : Nat.toDigits 10 n with
  | nil => exact absurd h Nat.toDigits_ne_nil
  | cons d t => exact ⟨d, t, rfl, isDigit_of_mem_toDigits (by rw [h]; exact List.mem_cons_self)⟩

lemma skipSpaces_toDigits_append (n : ℕ) (r : List Char) :
    skipSpaces (Nat.toDigits 10 n ++ r) = Nat.toDigits 10 n ++ r := by
  obtain ⟨d, t, ht, hd⟩ := toDigits_eq_cons n
  rw [ht, List.cons_append, skipSpaces_cons_of_not_isSpace _ (isSpace_of_isDigit hd)]

lemma digitsValue_toDigits (n : ℕ) : digitsValue 10 (Nat.toDigits 10 n) = n := by
  have hdig : ∀ c ∈ Nat.toDigits 10 n, c.isDigit = true := fun c hc => isDigit_of_mem_toDigits hc
  calc digitsValue 10 (Nat.toDigits 10 n)
      = (Nat.toDigits 10 n).foldl (fun acc c => 10 * acc + (c.toNat - '0'.toNat)) 0 := by
        unfold digitsValue
        refine List.foldl_ext _ _ 0 fun acc c hc => ?_
        rw [digitVal_of_isDigit (hdig c hc), Option.getD_some, Nat.mul_comm]
    _ = n := Nat.ofDigitChars_toDigits (by norm_num) (by norm_num)

/-- The decimal digits of a positive number do not start with `0`. -/
lemma toDigits_head_ne_zero {n : ℕ} (hn : 0 < n) :
    ∃ d t, Nat.toDigits 10 n = d :: t ∧ d ≠ '0' := by
  induction n using Nat.strong_induction_on with
  | _ n ih =>
    rw [Nat.toDigits_eq_if (by norm_num)]
    split
    · exact ⟨_, [], rfl, by simp; omega⟩
    · obtain ⟨d, t, ht, hd⟩ := ih (n / 10) (by omega) (by omega)
      exact ⟨d, t ++ _, by rw [ht, List.cons_append], hd⟩

lemma digitPrefix_toDigits {base : ℕ} (hb : 10 ≤ base) (n : ℕ) {r : List Char}
    (hr : r = [] ∨ r = ['\n']) : digitPrefix base (Nat.toDigits 10 n ++ r) = Nat.toDigits 10 n := by
  have hall : ∀ c ∈ Nat.toDigits 10 n, (digitVal c).any (· < base) = true := by
    intro c hc
    have hd := isDigit_of_mem_toDigits hc
    have := Char.isDigit_iff_toNat.mp hd
    simp only [Char.reduceToNat] at this
    rw [digitVal_of_isDigit hd]
    simp only [Char.reduceToNat, Option.any_some, decide_eq_true_eq]
    omega
  rw [digitPrefix, List.takeWhile_append_of_pos hall]
  rcases hr with rfl | rfl <;> simp [digitVal, toLowerBits]

lemma skipPlus_cons_of_ne {c : Char} (s : List Char) (h : c ≠ '+') :
    skipPlus (c :: s) = c :: s := by
  unfold skipPlus
  split
  · simp_all
  · rfl

lemma fixupRadix_zero_of_ne {c : Char} (s : List Char) (h : c ≠ '0') :
    fixupRadix 0 (c :: s) = (10, c :: s) := by
  have hb : fixupBase 0 (c :: s) = 10 := by
    unfold fixupBase
    split <;> simp_all
  unfold fixupRadix
  rw [hb]
  split
  · simp_all
  · rfl

lemma parseTail_toDigits {n : ℕ} (hn : n < 2 ^ 64) {r : List Char} (hr : r = [] ∨ r = ['\n']) :
    parseTail 10 (Nat.toDigits 10 n ++ r) = .ok n := by
  have hcs := digitPrefix_toDigits (le_refl 10) n hr
  unfold parseTail
  dsimp only
  rw [hcs, digitsValue_toDigits, if_neg (by omega), if_neg Nat.toDigits_ne_nil,
    List.drop_left]
  rcases hr with rfl | rfl <;> rfl

/-- **Printed numbers are accepted.** The decimal digits of a number below `2 ^ 64`, alone or
followed by a newline, are accepted by `kstrtoull` in base `0` with that value; a `0` is
read in base `8`. -/
theorem kstrtoull_toDigits {n : ℕ} (hn : n < 2 ^ 64) {r : List Char}
    (hr : r = [] ∨ r = ['\n']) : kstrtoull (Nat.toDigits 10 n ++ r) 0 = .ok n := by
  rcases Nat.eq_zero_or_pos n with rfl | hpos
  · rcases hr with rfl | rfl <;> rfl
  · -- no sign, and a first digit other than `0` selects base `10`
    obtain ⟨d, t, ht, hd⟩ := toDigits_head_ne_zero hpos
    have hdig : d.isDigit = true := isDigit_of_mem_toDigits (by rw [ht]; exact List.mem_cons_self)
    have hplus : d ≠ '+' := by
      rintro rfl
      exact absurd hdig (by decide)
    have hfix : fixupRadix 0 (skipPlus (Nat.toDigits 10 n ++ r)) = (10, Nat.toDigits 10 n ++ r) := by
      rw [ht, List.cons_append, skipPlus_cons_of_ne _ hplus, fixupRadix_zero_of_ne _ hd]
    unfold kstrtoull
    rw [hfix]
    exact parseTail_toDigits hn hr

lemma fixupRadix_ten (s : List Char) : fixupRadix 10 s = (10, s) := by
  unfold fixupRadix
  rw [show fixupBase 10 s = 10 from rfl]
  split <;> simp

lemma simpleStrntoull_toDigits (n : ℕ) {r : List Char} (hr : r = [] ∨ r = ['\n']) :
    simpleStrntoull 10 (Nat.toDigits 10 n ++ r) = (n % 2 ^ 64, r) := by
  unfold simpleStrntoull
  rw [fixupRadix_ten]
  dsimp only
  rw [digitPrefix_toDigits (le_refl 10) n hr, digitsValue_toDigits, List.drop_left]

/-- **`%u` reads back a printed number**, followed by nothing or a newline. -/
theorem vsscanf_u (n : ℕ) {r : List Char} (hr : r = [] ∨ r = ['\n']) :
    vsscanf ['%', 'u'] (Nat.toDigits 10 n ++ r) = [n % 2 ^ 64 % 2 ^ 32] := by
  obtain ⟨d, t, ht, hdig⟩ := toDigits_eq_cons n
  -- the conversion: no space to skip, a digit first, then `simple_strntoull` in base `10`
  have hconv : scanConv false 'u' (Nat.toDigits 10 n ++ r) = some (n % 2 ^ 64 % 2 ^ 32, r) := by
    unfold scanConv
    rw [if_neg (by simp [Nat.toDigits_ne_nil]), if_pos rfl, skipSpaces_toDigits_append]
    conv_lhs => rw [ht, List.cons_append]
    dsimp only
    rw [if_neg (by simp [hdig]), ← List.cons_append, ← ht, simpleStrntoull_toDigits n hr]
    rfl
  show (match scanConv false 'u' (Nat.toDigits 10 n ++ r) with
    | some (v, str) => v :: vsscanf [] str
    | none => []) = _
  rw [hconv]
  rfl

end KStr
