import Mathlib.Tactic.Ring
import Unvmed.Lib.Chain

/-!
The PRP lists of the fio engine (`fio_libunvmed_iomem_alloc` in `src/app/fio/libunvmed-engine.c`).

Without `cmb_list` every `io_u` has the same number of list pages, which is computed from the
largest block size. A transfer has one entry for each of its pages but the first, which is PRP1. A
list page that is not the last one gives its last entry to the link.

* `prpLists_hold`: the pages of an `io_u` hold the entries of every transfer.
-/

namespace Unvmed.PrpList

open Lib

/-- `unvmed_pagesize` -/
def pagesize (mps : ℕ) : BitVec 64 := 1#64 <<< (12 + mps)

/-- `nr_lists`; `DIV_ROUND_UP` counts in 64 bits, and an `int` keeps 32. -/
def nrLists (P maxBs : BitVec 64) : BitVec 32 := ((maxBs / P * 8 + P - 1) / P + 1).setWidth 32

/-- `ld->prp_list_iomem_usize`: `(size_t)nr_lists * unvmed_pagesize(u)`. -/
def usize (P maxBs : BitVec 64) : BitVec 64 := (nrLists P maxBs).signExtend 64 * P

/-- The pages that `len` bytes from `off` on touch. -/
def touched (P off len : ℕ) : ℕ := (off + len + (P - 1)) / P

/-- The entries after PRP1 of a transfer that starts in the page at `page`. -/
def entries (P page off len : ℕ) : List ℕ :=
  (List.range (touched P off len - 1)).map fun i => page + (i + 1) * P

section Sizes

variable {k : ℕ}

theorem toNat_pagesize (word : k < 52) : (pagesize k).toNat = 2 ^ (12 + k) := by
  have small : 2 ^ (12 + k) < 2 ^ 64 := Nat.pow_lt_pow_right (by decide) (by omega)
  rw [pagesize, BitVec.toNat_shiftLeft, Nat.shiftLeft_eq]
  simpa using small

/-- An entry has 8 bytes. -/
theorem pagesize_eq (word : k < 52) : (pagesize k).toNat = 8 * ((pagesize k).toNat / 8) := by
  rw [toNat_pagesize word, show 12 + k = 3 + (9 + k) by omega, pow_add]
  omega

theorem pagesize_bounds (word : k < 52) :
    4096 ≤ (pagesize k).toNat ∧ (pagesize k).toNat ≤ 2 ^ 63 := by
  have least : 2 ^ 12 ≤ 2 ^ (12 + k) := Nat.pow_le_pow_right (by decide) (by omega)
  rw [toNat_pagesize word]
  constructor
  · exact least
  · exact Nat.pow_le_pow_right (by decide) (by omega)

end Sizes

section Rounding

variable {P E n q : ℕ}

theorem touched_le {off len maxBs : ℕ} (off_lt : off < P) (len_le : len ≤ maxBs) :
    touched P off len ≤ maxBs / P + 2 := by
  have pos : 0 < P := by omega
  have whole := Nat.div_add_mod maxBs P
  have rest := Nat.mod_lt maxBs pos
  have inside : off + len + (P - 1) < P * (maxBs / P + 3) := by
    rw [Nat.mul_add]
    omega
  have lt : touched P off len < maxBs / P + 3 := Nat.div_lt_of_lt_mul inside
  omega

/-- The quotient that is rounded up is the least that covers `n`. -/
theorem covers (pos : 0 < E) (up : q = (n + (E - 1)) / E) : n ≤ q * E ∧ (q - 1) * E ≤ n := by
  have whole := Nat.div_add_mod (n + (E - 1)) E
  have rest := Nat.mod_lt (n + (E - 1)) pos
  rw [← up, Nat.mul_comm] at whole
  constructor
  · omega
  · rw [Nat.sub_mul]
    omega

/-- Eight bytes for each of `n` entries are as many pages as there are runs of `E` entries. -/
theorem bytes_div (page : P = 8 * E) (pos : 0 < E) : (n * 8 + (P - 1)) / P = (n + (E - 1)) / E := by
  have same : (n * 8 + (P - 1)) / 8 = n + (E - 1) := by omega
  rw [page, ← Nat.div_div_eq_div_mul, ← page, same]

/-- The spare page takes up what the links cost. -/
theorem room_suffices (q_lt : q < E) (covered : n ≤ q * E) : n + 1 ≤ (q + 1) * (E - 1) + 1 := by
  have split : (q + 1) * (E - 1) + (q + 1) = q * E + E := by
    rw [← Nat.mul_succ, Nat.succ_eq_add_one, Nat.sub_add_cancel (by omega), Nat.succ_mul]
  omega

/-- So many pages are counted by an `int`. -/
theorem count_small (page : P = 8 * E) (bytes : n * P < 2 ^ 64) (q_lt : q < E)
    (least : (q - 1) * E ≤ n) : q < 2 ^ 30 := by
  by_contra large
  have long : 2 ^ 30 ≤ E := by omega
  have many : (2 ^ 30 - 1) * 2 ^ 30 ≤ (q - 1) * E := Nat.mul_le_mul (by omega) long
  have bytes' : n * 2 ^ 33 ≤ n * P := Nat.mul_le_mul_left n (by omega)
  omega

end Rounding

section Lists

variable {k off len page : ℕ} {maxBs : BitVec 64}

/-- What `nr_lists` is, if an `int` holds it. -/
theorem toNat_nrLists (word : k < 52)
    (fits : ((maxBs / pagesize k).toNat * 8 + ((pagesize k).toNat - 1)) / (pagesize k).toNat <
      2 ^ 30) :
    (nrLists (pagesize k) maxBs).toNat =
      ((maxBs / pagesize k).toNat * 8 + ((pagesize k).toNat - 1)) / (pagesize k).toNat + 1 := by
  obtain ⟨ge, le⟩ := pagesize_bounds word
  have bytes : (maxBs / pagesize k).toNat * (pagesize k).toNat < 2 ^ 64 := by
    rw [BitVec.toNat_udiv]
    exact (Nat.div_mul_le_self _ _).trans_lt maxBs.isLt
  have few : (maxBs / pagesize k).toNat * 4096 < 2 ^ 64 :=
    (Nat.mul_le_mul_left _ ge).trans_lt bytes
  have one : (1 : BitVec 64).toNat = 1 := rfl
  have product : (maxBs / pagesize k * 8).toNat = (maxBs / pagesize k).toNat * 8 := by
    rw [BitVec.toNat_mul, Nat.mod_eq_of_lt]
    · rfl
    · change (maxBs / pagesize k).toNat * 8 < 2 ^ 64
      omega
  have sum : (maxBs / pagesize k * 8 + pagesize k - 1).toNat =
      (maxBs / pagesize k).toNat * 8 + ((pagesize k).toNat - 1) := by
    rw [BitVec.toNat_sub, BitVec.toNat_add, product, one]
    omega
  rw [nrLists, BitVec.toNat_setWidth, BitVec.toNat_add, BitVec.toNat_udiv, sum, one]
  generalize ((maxBs / pagesize k).toNat * 8 + ((pagesize k).toNat - 1)) /
    (pagesize k).toNat = q at fits ⊢
  omega

/-- Up to the bound, the count is that of the runs of entries and one more. -/
theorem nrLists_bounded (word : k < 52) (bounded : (maxBs / pagesize k).toNat ≤
    (pagesize k).toNat / 8 * ((pagesize k).toNat / 8 - 1)) :
    ∃ q, (nrLists (pagesize k) maxBs).toNat = q + 1 ∧ q < (pagesize k).toNat / 8 ∧ q < 2 ^ 30 ∧
      (maxBs / pagesize k).toNat ≤ q * ((pagesize k).toNat / 8) := by
  have eights := pagesize_eq word
  obtain ⟨ge, -⟩ := pagesize_bounds word
  have pos : 0 < (pagesize k).toNat / 8 := by omega
  have bytes : (maxBs / pagesize k).toNat * (pagesize k).toNat < 2 ^ 64 := by
    rw [BitVec.toNat_udiv]
    exact (Nat.div_mul_le_self _ _).trans_lt maxBs.isLt
  generalize up : ((maxBs / pagesize k).toNat + ((pagesize k).toNat / 8 - 1)) /
    ((pagesize k).toNat / 8) = q
  obtain ⟨covered, least⟩ := covers pos up.symm
  have q_lt : q < (pagesize k).toNat / 8 := by
    rw [← up]
    apply Nat.div_lt_of_lt_mul
    have split := Nat.mul_sub_one ((pagesize k).toNat / 8) ((pagesize k).toNat / 8)
    have square := Nat.le_mul_self ((pagesize k).toNat / 8)
    omega
  have small := count_small eights bytes q_lt least
  have runs := bytes_div (n := (maxBs / pagesize k).toNat) eights pos
  rw [up] at runs
  refine ⟨q, ?_, q_lt, small, covered⟩
  rw [toNat_nrLists word (runs ▸ small), runs]

/-- **Sizing.** For every page size and every block size up to the bound, and for every transfer
within the block size at every offset in a page, the pages of an `io_u` hold the entries after PRP1
in their order. -/
theorem prpLists_hold (word : k < 52)
    (bounded : (maxBs / pagesize k).toNat ≤
      (pagesize k).toNat / 8 * ((pagesize k).toNat / 8 - 1))
    (off_lt : off < (pagesize k).toNat) (len_le : len ≤ maxBs.toNat) :
    ∃ pages, chain ((pagesize k).toNat / 8) (nrLists (pagesize k) maxBs).toInt.toNat
        (entries (pagesize k).toNat page off len) = some pages ∧
      pages.flatten.filterMap Slot.toEntry = entries (pagesize k).toNat page off len ∧
      ∀ list ∈ pages, list.length * 8 ≤ (pagesize k).toNat := by
  obtain ⟨q, count, q_lt, small, covered⟩ := nrLists_bounded word bounded
  obtain ⟨ge, le⟩ := pagesize_bounds word
  have positive : (nrLists (pagesize k) maxBs).msb = false := by
    rw [BitVec.msb_eq_false_iff_two_mul_lt]
    omega
  have lists : (nrLists (pagesize k) maxBs).toInt.toNat = q + 1 := by
    rw [BitVec.toInt_eq_toNat_of_msb positive, Int.toNat_natCast, count]
  have touches := touched_le off_lt len_le
  have quotient : (maxBs / pagesize k).toNat = maxBs.toNat / (pagesize k).toNat :=
    BitVec.toNat_udiv
  have room := room_suffices q_lt covered
  have fits : (chain ((pagesize k).toNat / 8) (nrLists (pagesize k) maxBs).toInt.toNat
      (entries (pagesize k).toNat page off len)).isSome := by
    rw [chain_isSome_iff (by omega), lists, entries, List.length_map, List.length_range]
    exact ⟨q.succ_pos, by omega⟩
  obtain ⟨pages, hold⟩ := Option.isSome_iff_exists.mp fits
  refine ⟨pages, hold, chain_entries hold, ?_⟩
  intro list mem
  have short := (chain_length (by omega) hold).2 list mem
  omega

/-- A mebibyte from the last byte of a page on. -/
theorem mebibyte_holds :
    ∃ pages, chain ((pagesize 0).toNat / 8) (nrLists (pagesize 0) 0x100000).toInt.toNat
        (entries (pagesize 0).toNat 0 4095 0x100000) = some pages ∧
      pages.flatten.filterMap Slot.toEntry = entries (pagesize 0).toNat 0 4095 0x100000 ∧
      ∀ list ∈ pages, list.length * 8 ≤ (pagesize 0).toNat :=
  prpLists_hold (by decide) (by decide) (by decide) (by decide)

end Lists

end Unvmed.PrpList
