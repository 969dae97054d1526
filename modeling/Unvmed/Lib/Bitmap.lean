import Mathlib.Data.List.GetD
import Mathlib.Data.List.Range
import Mathlib.Data.BitVec

/-!
Bitmaps stored as bytes.

`testBit bs c` reads bit `c % 8` of byte `c / 8`. A byte-wise update that sets or
clears one bit of one byte sets or clears exactly one bit of the whole map
(`testBit_set_or`, `testBit_set_andNot`).
-/

namespace Lib

/-- Bit `c` of a bitmap; bits past the end read as clear. -/
def testBit (bs : List (BitVec 8)) (c : Nat) : Bool := (bs.getD (c / 8) 0).getLsbD (c % 8)

/-- The lowest clear bit of a byte. -/
def findFirstZero (b : BitVec 8) : Option Nat := (List.range 8).find? fun i => !b.getLsbD i

theorem findFirstZero_some {b : BitVec 8} {pos : Nat} (h : findFirstZero b = some pos) :
    pos < 8 ∧ b.getLsbD pos = false := by
  refine ⟨List.mem_range.mp (List.mem_of_find?_eq_some h), ?_⟩
  simpa using List.find?_some h

theorem findFirstZero_none {b : BitVec 8} (h : findFirstZero b = none) {pos : Nat} (hpos : pos < 8) :
    b.getLsbD pos = true := by
  simpa using List.find?_eq_none.mp h pos (List.mem_range.mpr hpos)

theorem testBit_of_byte {bs : List (BitVec 8)} {i pos : Nat} (hpos : pos < 8) :
    testBit bs (i * 8 + pos) = (bs.getD i 0).getLsbD pos := by
  have byte : (i * 8 + pos) / 8 = i := by omega
  have bit : (i * 8 + pos) % 8 = pos := by omega
  rw [testBit, byte, bit]

/-- A byte of all ones has every bit set. -/
theorem testBit_of_full {bs : List (BitVec 8)} {c : Nat} (h : bs.getD (c / 8) 0 = 0xFF#8) :
    testBit bs c = true := by
  have low : c % 8 < 8 := Nat.mod_lt _ (by decide)
  have ones : 0xFF#8 = BitVec.allOnes 8 := by decide
  rw [testBit, h, ones, BitVec.getLsbD_allOnes]
  exact decide_eq_true low

theorem testBit_lt {bs : List (BitVec 8)} {c : Nat} (h : testBit bs c = true) :
    c < 8 * bs.length := by
  by_contra out
  rw [testBit, List.getD_eq_default _ _ (by omega)] at h
  simp at h

theorem getLsbD_mask (pos k : Nat) (hk : k < 8) :
    (1#8 <<< pos).getLsbD k = decide (k = pos) := by
  rw [BitVec.getLsbD_shiftLeft]
  by_cases h : k = pos
  · subst h
    simp [hk]
  · by_cases low : k < pos
    · simp [low, h]
    · have : k - pos ≠ 0 := by omega
      simp [h, low, this]

/-- Byte `i` is replaced: only its own bits can change. -/
theorem testBit_set {bs : List (BitVec 8)} {i : Nat} (hi : i < bs.length) (b : BitVec 8) (c : Nat) :
    testBit (bs.set i b) c = if c / 8 = i then b.getLsbD (c % 8) else testBit bs c := by
  unfold testBit
  split
  · rename_i same
    rw [same, List.getD_eq_getElem _ _ (by simpa using hi)]
    simp
  · rename_i other
    rw [List.getD_eq_getElem?_getD, List.getElem?_set_ne (Ne.symm other),
      ← List.getD_eq_getElem?_getD]

theorem testBit_set_or {bs : List (BitVec 8)} {i pos : Nat} {old : BitVec 8} (hi : i < bs.length)
    (hpos : pos < 8) (read : bs.getD i 0 = old) (c : Nat) :
    testBit (bs.set i (old ||| 1#8 <<< pos)) c = (testBit bs c || decide (c = i * 8 + pos)) := by
  rw [testBit_set hi]
  split
  · rename_i same
    have bit : (c % 8 = pos) ↔ (c = i * 8 + pos) := by omega
    rw [BitVec.getLsbD_or, getLsbD_mask _ _ (Nat.mod_lt _ (by decide)), testBit, same, read]
    simp only [bit]
  · rename_i other
    have : c ≠ i * 8 + pos := by omega
    simp [this]

theorem testBit_set_andNot {bs : List (BitVec 8)} {i pos : Nat} {old : BitVec 8}
    (hi : i < bs.length) (hpos : pos < 8) (read : bs.getD i 0 = old) (c : Nat) :
    testBit (bs.set i (old &&& ~~~(1#8 <<< pos))) c =
      (testBit bs c && !decide (c = i * 8 + pos)) := by
  rw [testBit_set hi]
  split
  · rename_i same
    have bit : (c % 8 = pos) ↔ (c = i * 8 + pos) := by omega
    rw [BitVec.getLsbD_and, BitVec.getLsbD_not, getLsbD_mask _ _ (Nat.mod_lt _ (by decide)),
      testBit, same, read]
    simp [bit, Nat.mod_lt]
  · rename_i other
    have : c ≠ i * 8 + pos := by omega
    simp [this]

end Lib
