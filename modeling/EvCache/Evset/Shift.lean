import EvCache.Evset.L2Ideal
import EvCache.Lib.BitField
import Mathlib

set_option autoImplicit false

/-!
# Shifting eviction sets and candidates to another page offset

The L2 sets the tool builds at page offset `0` are moved to the other offsets by
`evset_shift`, and the candidate pools by `evcands_shift`: every address keeps its page and
gets the new offset. A page offset fixes the low set-index bits of a line, and the page's
frame, which shifting does not change, fixes the rest. So once the virtual-to-physical
translation keeps the page offset, a shifted eviction set is again congruent, and every
shifted line keeps its colour, the set-index bits above the page offset.

## Main definitions

* `readBitRange` — `_read_bit_range` of `bitwise.h`.
* `cacheGetSib`, `cacheGetColor`, `calcUnknownSib` — the set index, the colour and the
  number of colour bits of `cache_info.h` and `cache_info.c`.
* `EvCands`, `evcandsShift` — a candidate pool and `evcands_shift`.
* `physAddr` — a translation that keeps the page offset.
* `L2Geometry` — an L2 geometry with 64-byte lines, as `init_l2_info` leaves it.
* `SameSib`, `ShiftedTo` — congruent lists, and a list moved to an offset with its colours.

## Main results

* `cacheGetSib_physAddr`, `cacheGetColor_physAddr` — the set index of a translated line is
  its line offset in the page plus the low frame bits; its colour is frame bits alone.
* `evsetShift_sameSib` — a congruent eviction set stays congruent when shifted, and the
  shifted set and the shifted candidates keep their colours and sit at the new offset.

## Model

Addresses are natural numbers below `2 ^ 64`. The shifts of `_read_bit_range` are the
mathematical ones: the callers here keep the shift counts below `64`, where C defines them.
`physAddr F` stands for the page tables: page `v >> 12` is mapped to frame `F (v >> 12)`.

## References

* `src/include/bitwise.h` (`_read_bit_range`), `src/include/cache_info.h` (lines 53-79),
  `src/src/cache_info.c` (lines 24-27), `src/src/evset.c` (lines 219-246 and 636-668).
-/

namespace EvCache

open BitField

/-! ## Model -/

/-- `PAGE_OFFSET_BITS` of `common.h`. -/
def pageOffsetBits : ℕ := 12

/-- `_read_bit_range(data, end, start)` (`bitwise.h`): the bits `[start, end)` of `data`, and
`0` for an empty range. The `u16` difference `end - start` wraps only when `end ≤ start`,
where it is not used. -/
def readBitRange (data stop start : ℕ) : ℕ :=
  let width := stop - start
  let mask := 1 <<< width - 1
  if stop ≤ start then 0 else data >>> start &&& mask

/-- `cache_get_sib(addr, c)` (`cache_info.h`): the set-index bits of `addr`, as `u32`. The
bounds are `u32` sums passed as `u16`. -/
def cacheGetSib (addr : ℕ) (c : CacheInfo) : ℕ :=
  readBitRange addr ((c.n_cl_bits + c.n_set_idx_bits) % 2 ^ 16) (c.n_cl_bits % 2 ^ 16) % 2 ^ 32

/-- `cache_get_color(addr, c)` (`cache_info.h`): the top `unknown_sib` set-index bits of `addr`,
and `0` when there are none. The start `n_cl_bits + n_set_idx_bits - unknown_sib` is a `u32`
expression (the `i32` converted) passed as `u16`. -/
def cacheGetColor (addr : ℕ) (c : CacheInfo) : ℕ :=
  if c.unknown_sib ≤ 0 then 0
  else readBitRange addr ((c.n_cl_bits + c.n_set_idx_bits) % 2 ^ 16)
    (((c.n_cl_bits + c.n_set_idx_bits : ℤ) - c.unknown_sib) % 2 ^ 16).toNat % 2 ^ 32

/-- `calc_unknown_sib(c)` (`cache_info.c:24`): the set-index bits a page offset does not fix,
`n_cl_bits + n_set_idx_bits - PAGE_OFFSET_BITS` computed in `u32` and returned as `i32`. -/
def calcUnknownSib (c : CacheInfo) : ℤ :=
  let d := ((c.n_cl_bits + c.n_set_idx_bits : ℤ) - pageOffsetBits) % 2 ^ 32
  if d < 2 ^ 31 then d else d - 2 ^ 32

/-- The part of `EvCands` (`evset.h`) the modelled functions read: the candidate lines
`addrs[0..count)`. The buffer they lie in, the reference counts and `cand_scale` are not
read. -/
structure EvCands where
  addrs : List ℕ
  count : ℕ
  deriving DecidableEq, Repr

/-- `evcands_shift(from, offset)` (`evset.c:219`): every candidate moved to offset `offset` of
its page. -/
def evcandsShift (cands : EvCands) (offset : ℕ) : EvCands where
  addrs := (cands.addrs.take cands.count).map fun a => a / pageSize * pageSize + offset
  count := cands.count

/-- A virtual-to-physical translation that keeps the page offset: page `v >> 12` lies in
frame `F (v >> 12)`. -/
def physAddr (F : ℕ → ℕ) (v : ℕ) : ℕ := F (v >>> pageShift) * pageSize + v % pageSize

/-- An L2 geometry as `init_l2_info` leaves it, with 64-byte lines and between 6 and 57
set-index bits: every bit range then lies below bit `64`, and the colour bits lie above the
page offset. -/
structure L2Geometry (c : CacheInfo) : Prop where
  cl_bits : c.n_cl_bits = 6
  set_bits_ge : 6 ≤ c.n_set_idx_bits
  set_bits_le : c.n_set_idx_bits ≤ 57
  unknown_sib : c.unknown_sib = calcUnknownSib c

/-- The addresses of `l` all lie in one set of `c` once translated by `F`. -/
def SameSib (c : CacheInfo) (F : ℕ → ℕ) (l : List ℕ) : Prop :=
  ∀ x ∈ l, ∀ y ∈ l, cacheGetSib (physAddr F x) c = cacheGetSib (physAddr F y) c

instance (c : CacheInfo) (F : ℕ → ℕ) (l : List ℕ) : Decidable (SameSib c F l) :=
  inferInstanceAs (Decidable (∀ x ∈ l, ∀ y ∈ l, _))

/-- `l'` is `l` moved to page offset `o`, address by address, each keeping its colour. -/
def ShiftedTo (c : CacheInfo) (F : ℕ → ℕ) (o : ℕ) (l l' : List ℕ) : Prop :=
  List.Forall₂ (fun a a' => cacheGetColor (physAddr F a') c = cacheGetColor (physAddr F a) c ∧
    a' % pageSize = o) l l'

/-! ## Bit ranges of a geometry -/

lemma readBitRange_eq {stop start : ℕ} (h : start < stop) (data : ℕ) :
    readBitRange data stop start = get data start (stop - start) := by
  unfold readBitRange
  dsimp only
  rw [if_neg (by omega), shiftRight_and_mask]

variable {c : CacheInfo}

lemma L2Geometry.set_end (hc : L2Geometry c) :
    (c.n_cl_bits + c.n_set_idx_bits) % 2 ^ 16 = 6 + c.n_set_idx_bits := by
  have := hc.set_bits_le
  rw [hc.cl_bits]
  omega

lemma L2Geometry.set_start (hc : L2Geometry c) : c.n_cl_bits % 2 ^ 16 = 6 := by
  rw [hc.cl_bits]
  norm_num

lemma L2Geometry.unknown_sib_eq (hc : L2Geometry c) :
    c.unknown_sib = (c.n_set_idx_bits : ℤ) - 6 := by
  have hge := hc.set_bits_ge
  have hle := hc.set_bits_le
  have hd : ((c.n_cl_bits + c.n_set_idx_bits : ℤ) - pageOffsetBits) % 2 ^ 32 =
      (c.n_set_idx_bits : ℤ) - 6 := by
    rw [hc.cl_bits, pageOffsetBits]
    omega
  rw [hc.unknown_sib, calcUnknownSib, hd, if_pos (by omega)]

/-- The set index is the line's offset in its page plus the set-index bits above the page
offset, of which `u32` keeps the low ones. -/
lemma cacheGetSib_eq (hc : L2Geometry c) (a : ℕ) :
    cacheGetSib a c = get a 6 6 + 64 * get a 12 (min c.n_set_idx_bits 32 - 6) := by
  obtain ⟨k, hk⟩ : ∃ k, min c.n_set_idx_bits 32 = 6 + k :=
    ⟨min c.n_set_idx_bits 32 - 6, by have := hc.set_bits_ge; omega⟩
  rw [cacheGetSib, hc.set_end, hc.set_start, readBitRange_eq (by omega), Nat.add_sub_cancel_left,
    get_mod_two_pow, hk, Nat.add_sub_cancel_left, get_add_width]
  rfl

/-- The colour is the set-index bits above the page offset, none with six set-index bits. -/
lemma cacheGetColor_eq (hc : L2Geometry c) (a : ℕ) :
    cacheGetColor a c = get a 12 (min (c.n_set_idx_bits - 6) 32) := by
  have hsib := hc.unknown_sib_eq
  rcases Nat.eq_or_lt_of_le hc.set_bits_ge with h6 | h6
  · rw [cacheGetColor, if_pos (by omega), ← h6, Nat.sub_self, Nat.zero_min, get_zero_width]
  · have hstart : (((c.n_cl_bits + c.n_set_idx_bits : ℤ) - c.unknown_sib) % 2 ^ 16).toNat = 12 := by
      rw [hsib, hc.cl_bits]
      omega
    rw [cacheGetColor, if_neg (by omega), hstart, hc.set_end, readBitRange_eq (by omega),
      get_mod_two_pow, show 6 + c.n_set_idx_bits - 12 = c.n_set_idx_bits - 6 by omega]

/-! ## Translated and shifted addresses -/

lemma physAddr_eq (F : ℕ → ℕ) (v : ℕ) :
    physAddr F v = F (v / pageSize) * 2 ^ 12 + v % pageSize := by
  rw [physAddr, Nat.shiftRight_eq_div_pow]
  rfl

/-- Above the page offset, a translated address has the bits of its frame. -/
lemma get_physAddr_of_le {s : ℕ} (hs : 12 ≤ s) (F : ℕ → ℕ) (v w : ℕ) :
    get (physAddr F v) s w = get (F (v / pageSize)) (s - 12) w :=
  (physAddr_eq F v).symm ▸ get_mul_add_of_le (Nat.mod_lt v (by decide)) hs w

/-- Within the page offset, a translated address has the bits of the virtual one. -/
lemma get_physAddr_of_add_le {s w : ℕ} (h : s + w ≤ 12) (F : ℕ → ℕ) (v : ℕ) :
    get (physAddr F v) s w = get (v % pageSize) s w := by
  rw [physAddr_eq, get_mul_add_of_add_le h]

lemma pageBase_add_div {o : ℕ} (ho : o < pageSize) (v : ℕ) :
    (v / pageSize * pageSize + o) / pageSize = v / pageSize := by
  rw [add_comm, Nat.add_mul_div_right _ _ (by decide), Nat.div_eq_of_lt ho, zero_add]

lemma pageBase_add_mod {o : ℕ} (ho : o < pageSize) (v : ℕ) :
    (v / pageSize * pageSize + o) % pageSize = o := by
  rw [add_comm, Nat.add_mul_mod_self_right, Nat.mod_eq_of_lt ho]

/-- The set index of a translated line: its line offset in the page, and the low bits of its
frame above it. -/
lemma cacheGetSib_physAddr (hc : L2Geometry c) (F : ℕ → ℕ) (v : ℕ) :
    cacheGetSib (physAddr F v) c =
      get (v % pageSize) 6 6 + 64 * get (F (v / pageSize)) 0 (min c.n_set_idx_bits 32 - 6) := by
  rw [cacheGetSib_eq hc, get_physAddr_of_add_le (by norm_num), get_physAddr_of_le le_rfl,
    Nat.sub_self]

/-- The colour of a translated line is bits of its frame alone. -/
lemma cacheGetColor_physAddr (hc : L2Geometry c) (F : ℕ → ℕ) (v : ℕ) :
    cacheGetColor (physAddr F v) c = get (F (v / pageSize)) 0 (min (c.n_set_idx_bits - 6) 32) := by
  rw [cacheGetColor_eq hc, get_physAddr_of_le le_rfl, Nat.sub_self]

/-- Lines of one set have the same frame bits in their set index. -/
lemma frame_eq_of_cacheGetSib_eq (hc : L2Geometry c) {F : ℕ → ℕ} {x y : ℕ}
    (h : cacheGetSib (physAddr F x) c = cacheGetSib (physAddr F y) c) :
    get (F (x / pageSize)) 0 (min c.n_set_idx_bits 32 - 6) =
      get (F (y / pageSize)) 0 (min c.n_set_idx_bits 32 - 6) := by
  rw [cacheGetSib_physAddr hc, cacheGetSib_physAddr hc] at h
  have hx := get_lt (x % pageSize) 6 6
  have hy := get_lt (y % pageSize) 6 6
  omega

variable {o : ℕ}

/-- Two lines of one set are again in one set at any common page offset. -/
lemma cacheGetSib_physAddr_shift (hc : L2Geometry c) (ho : o < pageSize) {F : ℕ → ℕ} {x y : ℕ}
    (h : cacheGetSib (physAddr F x) c = cacheGetSib (physAddr F y) c) :
    cacheGetSib (physAddr F (x / pageSize * pageSize + o)) c =
      cacheGetSib (physAddr F (y / pageSize * pageSize + o)) c := by
  rw [cacheGetSib_physAddr hc, cacheGetSib_physAddr hc, pageBase_add_div ho, pageBase_add_div ho,
    pageBase_add_mod ho, pageBase_add_mod ho, frame_eq_of_cacheGetSib_eq hc h]

/-- A line moved within its page keeps its colour. -/
lemma cacheGetColor_physAddr_shift (hc : L2Geometry c) (ho : o < pageSize) (F : ℕ → ℕ) (v : ℕ) :
    cacheGetColor (physAddr F (v / pageSize * pageSize + o)) c = cacheGetColor (physAddr F v) c := by
  rw [cacheGetColor_physAddr hc, cacheGetColor_physAddr hc, pageBase_add_div ho]

lemma SameSib.map_shift (hc : L2Geometry c) (ho : o < pageSize) {F : ℕ → ℕ} {l : List ℕ}
    (h : SameSib c F l) : SameSib c F (l.map fun a => a / pageSize * pageSize + o) := by
  intro x' hx' y' hy'
  obtain ⟨x, hx, rfl⟩ := List.mem_map.mp hx'
  obtain ⟨y, hy, rfl⟩ := List.mem_map.mp hy'
  exact cacheGetSib_physAddr_shift hc ho (h x hx y hy)

lemma shiftedTo_map (hc : L2Geometry c) (ho : o < pageSize) (F : ℕ → ℕ) (l : List ℕ) :
    ShiftedTo c F o l (l.map fun a => a / pageSize * pageSize + o) := by
  rw [ShiftedTo, List.forall₂_map_right_iff, List.forall₂_same]
  exact fun a _ => ⟨cacheGetColor_physAddr_shift hc ho F a, pageBase_add_mod ho a⟩

/-! ## Shifted sets -/

/-- The target and lines of a shifted set are those of the set, moved to offset `o`. -/
lemma targets_evsetShift {ev : EvSet ℕ} (h : ev.size ≤ ev.addrs.length) (o : ℕ) :
    (evsetShift ev o).target_addr :: (evsetShift ev o).lines =
      (ev.target_addr :: ev.lines).map fun a => a / pageSize * pageSize + o := by
  rw [lines_evsetShift h, List.map_cons]
  rfl

/-- **Shifting keeps L2 congruence.** For a translation that keeps the page offset and an L2
geometry with 64-byte lines, an eviction set whose target and lines lie in one L2 set is moved
by `evset_shift` to a set whose target and lines again lie in one L2 set; every shifted
address, and every candidate moved by `evcands_shift`, keeps its colour and sits at the new
offset.

**Proof sketch.** The set index of a translated line is its line offset in the page plus
`64` times the low bits of its frame (`cacheGetSib_physAddr`). Lines of one set therefore
agree on those frame bits; shifting keeps every frame and gives every line the same line
offset. The colour is frame bits alone (`cacheGetColor_physAddr`). -/
theorem evsetShift_sameSib (hc : L2Geometry c) (F : ℕ → ℕ) {ev : EvSet ℕ}
    (hsize : ev.size ≤ ev.addrs.length) (hsib : SameSib c F (ev.target_addr :: ev.lines))
    (ho : o < pageSize) (cands : EvCands) :
    SameSib c F ((evsetShift ev o).target_addr :: (evsetShift ev o).lines) ∧
      ShiftedTo c F o (ev.target_addr :: ev.lines)
        ((evsetShift ev o).target_addr :: (evsetShift ev o).lines) ∧
      ShiftedTo c F o (cands.addrs.take cands.count) (evcandsShift cands o).addrs := by
  rw [targets_evsetShift hsize]
  exact ⟨hsib.map_shift hc ho, shiftedTo_map hc ho F _, shiftedTo_map hc ho F _⟩

/-- A two-line set of a 1024-set L2 at offset `0`, moved to offset `64` with two candidates. -/
theorem evsetShift_sameSib_ten :
    SameSib ⟨64, 6, 10, 16, 1, 4⟩ id
        ((evsetShift ⟨[65536, 131072], 2, 2, 0, initDefL2Conf 0 0, ⟨64, 6, 10, 16, 1, 4⟩⟩ 64).target_addr ::
          (evsetShift ⟨[65536, 131072], 2, 2, 0, initDefL2Conf 0 0, ⟨64, 6, 10, 16, 1, 4⟩⟩ 64).lines) ∧
      ShiftedTo ⟨64, 6, 10, 16, 1, 4⟩ id 64 ([4096, 8192].take 2)
        (evcandsShift ⟨[4096, 8192], 2⟩ 64).addrs :=
  have h := @evsetShift_sameSib _ 64 ⟨rfl, by decide, by decide, by decide⟩ id
    ⟨[65536, 131072], 2, 2, 0, initDefL2Conf 0 0, ⟨64, 6, 10, 16, 1, 4⟩⟩ (by decide)
    (by decide) (by decide) ⟨[4096, 8192], 2⟩
  ⟨h.1, h.2.2⟩

end EvCache
