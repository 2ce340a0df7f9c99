import Mathlib

set_option autoImplicit false

/-!
# Bit fields of natural numbers

The field of width `w` starting at bit `s` of a number `n` is `n / 2 ^ s % 2 ^ w`, the value
the shift-and-mask `(n >> s) & ((1 << w) - 1)` computes. The facts below are the ones a
proof about an address split into fields needs: a field splits at an inner bit into a low and
a high part, truncating a field keeps its low bits, and the fields of `q * 2 ^ k + r` with
`r < 2 ^ k` are those of `q` above bit `k` and those of `r` below it.

## Main definitions

* `BitField.get` — the field `[s, s + w)` of `n`.

## Main results

* `BitField.shiftRight_and_mask` — the shift-and-mask form computes the field.
* `BitField.get_add_width` — a field is its low part plus its high part shifted.
* `BitField.get_mod_two_pow` — truncation to `m` bits keeps the low `m` bits of a field.
* `BitField.get_mul_add_of_le`, `BitField.get_mul_add_of_add_le` — the fields of
  `q * 2 ^ k + r` above and below bit `k`.
-/

namespace BitField

/-- The field of width `w` starting at bit `s` of `n`. -/
def get (n s w : ℕ) : ℕ := n / 2 ^ s % 2 ^ w

lemma get_lt (n s w : ℕ) : get n s w < 2 ^ w := Nat.mod_lt _ (Nat.two_pow_pos w)

@[simp]
lemma get_zero_width (n s : ℕ) : get n s 0 = 0 := by
  rw [get, pow_zero, Nat.mod_one]

lemma shiftRight_and_mask (n s w : ℕ) : n >>> s &&& (1 <<< w - 1) = get n s w := by
  rw [Nat.one_shiftLeft, Nat.and_two_pow_sub_one_eq_mod, Nat.shiftRight_eq_div_pow, get]

/-- A field of width `a + b` is its low `a` bits plus its high `b` bits shifted by `a`. -/
lemma get_add_width (n s a b : ℕ) : get n s (a + b) = get n s a + 2 ^ a * get n (s + a) b := by
  rw [get, get, get, pow_add, Nat.mod_mul, pow_add, Nat.div_div_eq_div_mul]

lemma get_mod_two_pow (n s w m : ℕ) : get n s w % 2 ^ m = get n s (min w m) := by
  rcases le_total w m with h | h
  · have hlt : get n s w < 2 ^ m :=
      lt_of_lt_of_le (get_lt n s w) (Nat.pow_le_pow_right two_pos h)
    rw [min_eq_left h, Nat.mod_eq_of_lt hlt]
  · rw [min_eq_right h, get, get, Nat.mod_mod_of_dvd _ (Nat.pow_dvd_pow 2 h)]

/-- Above bit `k`, the fields of `q * 2 ^ k + r` are those of `q`. -/
lemma get_mul_add_of_le {q r k s : ℕ} (hr : r < 2 ^ k) (hk : k ≤ s) (w : ℕ) :
    get (q * 2 ^ k + r) s w = get q (s - k) w := by
  have hdiv : (q * 2 ^ k + r) / 2 ^ k = q := by
    rw [mul_comm, Nat.mul_add_div (Nat.two_pow_pos k), Nat.div_eq_of_lt hr, add_zero]
  have hs : 2 ^ s = 2 ^ k * 2 ^ (s - k) := by
    rw [← pow_add, Nat.add_sub_cancel' hk]
  rw [get, get, hs, ← Nat.div_div_eq_div_mul, hdiv]

/-- Below bit `k`, the fields of `q * 2 ^ k + r` are those of `r`. -/
lemma get_mul_add_of_add_le {q r k s w : ℕ} (h : s + w ≤ k) :
    get (q * 2 ^ k + r) s w = get r s w := by
  -- `q * 2 ^ k` is a multiple of `2 ^ w` once shifted down by `s`
  have hq : q * 2 ^ k = q * 2 ^ (k - s - w) * 2 ^ w * 2 ^ s := by
    rw [mul_assoc, mul_assoc, ← pow_add, ← pow_add]
    congr 2
    omega
  rw [get, get, hq, add_comm, Nat.add_mul_div_right _ _ (Nat.two_pow_pos s),
    Nat.add_mul_mod_self_right]

end BitField
