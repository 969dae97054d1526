import Mathlib.Data.Nat.Bitwise

/-!
Bit fields of a register.

A register is a natural number; `field reg shift width` is the field of `width` bits that
starts at bit `shift`. A register is put together from shifted fields with `|||`, and
`field_or`, `field_own`, `field_below` and `field_above` take it apart again.
-/

namespace Lib

def field (reg shift width : Nat) : Nat := (reg >>> shift) % 2 ^ width

variable {x shift width shift' width' : Nat}

theorem field_lt (reg shift width : Nat) : field reg shift width < 2 ^ width :=
  Nat.mod_lt _ (Nat.two_pow_pos width)

theorem testBit_field (reg shift width i : Nat) :
    (field reg shift width).testBit i = (decide (i < width) && reg.testBit (shift + i)) := by
  rw [field, Nat.testBit_mod_two_pow, Nat.testBit_shiftRight]

theorem field_or (a b shift width : Nat) :
    field (a ||| b) shift width = field a shift width ||| field b shift width := by
  apply Nat.eq_of_testBit_eq
  intro i
  simp only [testBit_field, Nat.testBit_or, Bool.and_or_distrib_left]

/-- A field that was put there. -/
theorem field_own (fits : x < 2 ^ width) : field (x <<< shift) shift width = x := by
  rw [field, Nat.shiftLeft_shiftRight, Nat.mod_eq_of_lt fits]

/-- A field lies above what was put there. -/
theorem field_below (fits : x < 2 ^ width') (le : shift' + width' ≤ shift) :
    field (x <<< shift') shift width = 0 := by
  have small : x <<< shift' < 2 ^ shift := by
    rw [Nat.shiftLeft_eq]
    calc x * 2 ^ shift' < 2 ^ width' * 2 ^ shift' :=
          Nat.mul_lt_mul_of_pos_right fits (Nat.two_pow_pos _)
      _ = 2 ^ (shift' + width') := by rw [Nat.mul_comm, pow_add]
      _ ≤ 2 ^ shift := Nat.pow_le_pow_right Nat.two_pos le
  rw [field, Nat.shiftRight_eq_div_pow, Nat.div_eq_of_lt small, Nat.zero_mod]

/-- A field lies below what was put there. -/
theorem field_above (le : shift + width ≤ shift') : field (x <<< shift') shift width = 0 := by
  apply Nat.eq_of_testBit_eq
  intro i
  rw [testBit_field, Nat.testBit_shiftLeft, Nat.zero_testBit]
  by_cases inside : i < width
  · have low : ¬ shift' ≤ shift + i := by omega
    simp [low]
  · simp [inside]

/-- A register of so many bits keeps its low fields. -/
theorem field_mod (reg : Nat) {bits : Nat} (le : shift + width ≤ bits) :
    field (reg % 2 ^ bits) shift width = field reg shift width := by
  apply Nat.eq_of_testBit_eq
  intro i
  rw [testBit_field, testBit_field, Nat.testBit_mod_two_pow]
  by_cases inside : i < width
  · have low : shift + i < bits := by omega
    simp [low]
  · simp [inside]

end Lib
