import Unvmed.Fio.Pi
import Unvmed.Lib.Field

/-!
The tag words of a read or write command (`unvmed_sqe_set_tags` in `lib/libunvmed-cmds.c`).

The storage tag and the reference tag share one number of `tagWidth` bits, the storage tag in
its upper `sts` bits. The number is cut into the low 16 bits of `cdw2`, `cdw3` and `cdw14`. The tags
are 64-bit operands, and a shift by an amount outside of 0..63 is undefined (`Ub`). The host is
little-endian, so `cpu_to_le32` changes nothing.

* `setTags_lossless_iff`: the words hold both tags and every shift is defined, except for the 32b
  guard with a storage tag of 16 bits.
* `setTags_shift_by_width`: there the storage tag is shifted by 64.
-/

namespace Unvmed.Tags

open Lib

/-- Behaviour that C leaves undefined. -/
inductive Ub where
  /-- A shift by a negative amount, or by the width of its operand or more. -/
  | shift
  deriving DecidableEq, Repr

/-- The fields of `struct unvme_ns` that lay out the tags. -/
structure Ns where
  nsid : Nat
  /-- `none` is every value that is no guard format. -/
  pif : Option Pi.Pif
  sts : Nat

/-- What `unvmed_sqe_set_tags` writes of `struct nvme_cmd_rw`; `reftag` is `cdw14`. -/
structure Sqe where
  cdw2 : BitVec 32
  cdw3 : BitVec 32
  reftag : BitVec 32
  apptag : BitVec 16
  appmask : BitVec 16
  deriving DecidableEq, Repr

inductive Ret where
  | zero
  /-- `errno = EINVAL; return -1` -/
  | einval
  /-- `return -1` -/
  | minusOne
  deriving DecidableEq, Repr

/-- `x << n` with an `int` amount. -/
def shl (x : BitVec 64) (n : Int) : Except Ub (BitVec 64) :=
  if 0 ≤ n ∧ n < 64 then .ok (x <<< n.toNat) else .error .shift

/-- `x >> n` with an `int` amount. -/
def shr (x : BitVec 64) (n : Int) : Except Ub (BitVec 64) :=
  if 0 ≤ n ∧ n < 64 then .ok (x >>> n.toNat) else .error .shift

/-- `cdw2`, `cdw3` and `cdw14`. -/
structure Words where
  cdw2 : BitVec 32
  cdw3 : BitVec 32
  cdw14 : BitVec 32

def words16b (sts : Nat) (rtag stag : BitVec 64) : Except Ub Words := do
  let cdw14 := (rtag &&& 0xffffffff).setWidth 32
  let cdw14 := cdw14 ||| ((← shl stag (32 - sts)) &&& 0xffffffff).setWidth 32
  return ⟨0, 0, cdw14⟩

def words32b (sts : Nat) (rtag stag : BitVec 64) : Except Ub Words := do
  let cdw2 := ((← shr stag (sts - 16)) &&& 0xffff).setWidth 32
  let cdw3 := ((rtag >>> 32) &&& 0xffffffff).setWidth 32
  let cdw14 := (rtag &&& 0xffffffff).setWidth 32
  let cdw14 := cdw14 ||| ((← shl stag (80 - sts)) &&& 0xffff0000).setWidth 32
  let high ← if 48 ≤ sts then shr stag (sts - 48) else shl stag (48 - sts)
  let cdw3 := cdw3 ||| (high &&& 0xffffffff).setWidth 32
  return ⟨cdw2, cdw3, cdw14⟩

def words64b (sts : Nat) (rtag stag : BitVec 64) : Except Ub Words := do
  let cdw3 := ((rtag >>> 32) &&& 0xffff).setWidth 32
  let cdw14 := (rtag &&& 0xffffffff).setWidth 32
  let cdw14 := cdw14 ||| ((← shl stag (48 - sts)) &&& 0xffffffff).setWidth 32
  let high ← if 16 ≤ sts then shr stag (sts - 16) else shl stag (16 - sts)
  let cdw3 := cdw3 ||| (high &&& 0xffff).setWidth 32
  return ⟨0, cdw3, cdw14⟩

/-- The `switch` of `unvmed_sqe_set_tags`. -/
def tagWords (pif : Pi.Pif) (sts : Nat) (rtag stag : BitVec 64) : Except Ub Words :=
  match pif with
  | .guard16b => words16b sts rtag stag
  | .guard32b => words32b sts rtag stag
  | .guard64b => words64b sts rtag stag

/-- `unvmed_ns_get` -/
def nsGet (nsList : List Ns) (nsid : Nat) : Option Ns := nsList.find? (·.nsid = nsid)

/-- `unvmed_sqe_set_tags` -/
def setTags (nsList : List Ns) (nsid : Nat) (sqe : Sqe) (atag atagMask : BitVec 16)
    (rtag stag : BitVec 64) : Except Ub (Ret × Sqe) :=
  match nsGet nsList nsid with
  | none => .ok (.einval, sqe)
  | some ns =>
      match ns.pif with
      | none => .ok (.minusOne, sqe)
      | some pif => do
          let w ← tagWords pif ns.sts rtag stag
          return (.zero, ⟨w.cdw2, w.cdw3, w.cdw14, atag, atagMask⟩)

/-! ### What the words should hold -/

/-- The width of storage tag and reference tag together. -/
def tagWidth : Pi.Pif → Nat
  | .guard16b => 32
  | .guard32b => 80
  | .guard64b => 48

def minSts : Pi.Pif → Nat
  | .guard16b => 0
  | .guard32b => 16
  | .guard64b => 0

def maxSts : Pi.Pif → Nat
  | .guard16b => 32
  | .guard32b => 64
  | .guard64b => 48

/-- The storage tag sizes of a format. -/
def LegalSts (pif : Pi.Pif) (sts : Nat) : Prop := minSts pif ≤ sts ∧ sts ≤ maxSts pif

instance (pif : Pi.Pif) (sts : Nat) : Decidable (LegalSts pif sts) :=
  inferInstanceAs (Decidable (_ ∧ _))

/-- The number in `cdw2[15:0]`, `cdw3` and `cdw14`. -/
def Sqe.tags (sqe : Sqe) : Nat :=
  sqe.cdw2.toNat % 2 ^ 16 * 2 ^ 64 + sqe.cdw3.toNat * 2 ^ 32 + sqe.reftag.toNat

/-- The command holds both tags, at their places and complete. -/
structure Lossless (width sts : Nat) (rtag stag : BitVec 64) (sqe : Sqe) : Prop where
  tags : sqe.tags = stag.toNat * 2 ^ (width - sts) + rtag.toNat
  stag : sqe.tags / 2 ^ (width - sts) = stag.toNat
  rtag : sqe.tags % 2 ^ (width - sts) = rtag.toNat

/-! ### Words as fields of one number -/

section Words

variable {rtag stag : BitVec 64} {width sts : Nat}

theorem shl_ok {n : Int} {m : Nat} (amount : n = m) (small : m < 64) (x : BitVec 64) :
    shl x n = .ok (x <<< m) := by
  subst amount
  rw [shl, if_pos ⟨by omega, by omega⟩, Int.toNat_natCast]

theorem shr_ok {n : Int} {m : Nat} (amount : n = m) (small : m < 64) (x : BitVec 64) :
    shr x n = .ok (x >>> m) := by
  subst amount
  rw [shr, if_pos ⟨by omega, by omega⟩, Int.toNat_natCast]

/-- Both tags in one number. -/
def both (width sts : Nat) (rtag stag : BitVec 64) : Nat :=
  stag.toNat * 2 ^ (width - sts) + rtag.toNat

theorem testBit_both (room : rtag.toNat < 2 ^ (width - sts)) (i : Nat) :
    (both width sts rtag stag).testBit i =
      if i < width - sts then rtag.getLsbD i else stag.getLsbD (i - (width - sts)) := by
  rw [both, Nat.mul_comm, Nat.testBit_two_pow_mul_add _ room]
  rfl

theorem both_lt (fits : stag.toNat < 2 ^ sts) (room : rtag.toNat < 2 ^ (width - sts))
    (le : sts ≤ width) : both width sts rtag stag < 2 ^ width := by
  have split : 2 ^ width = 2 ^ sts * 2 ^ (width - sts) := by
    rw [← pow_add]
    congr 1
    omega
  have full : (stag.toNat + 1) * 2 ^ (width - sts) ≤ 2 ^ sts * 2 ^ (width - sts) :=
    Nat.mul_le_mul_right _ fits
  rw [Nat.add_one_mul] at full
  rw [both, split]
  omega

theorem getLsbD_past {x : BitVec 64} {n : Nat} (fits : x.toNat < 2 ^ n) {i : Nat} (le : n ≤ i) :
    x.getLsbD i = false :=
  Nat.testBit_lt_two_pow (lt_of_lt_of_le fits (Nat.pow_le_pow_right Nat.two_pos le))

theorem getLsbD_mask {n : Nat} (le : n ≤ 64) (i : Nat) :
    (BitVec.ofNat 64 (2 ^ n - 1)).getLsbD i = decide (i < n) := by
  rw [BitVec.getLsbD_ofNat, Nat.testBit_two_pow_sub_one]
  by_cases inside : i < n
  · have low : i < 64 := by omega
    simp [inside, low]
  · simp [inside]

theorem getLsbD_mask32 (i : Nat) : (0xffffffff : BitVec 64).getLsbD i = decide (i < 32) :=
  getLsbD_mask (n := 32) (by decide) i

theorem getLsbD_mask16 (i : Nat) : (0xffff : BitVec 64).getLsbD i = decide (i < 16) :=
  getLsbD_mask (n := 16) (by decide) i

theorem getLsbD_maskHigh16 (i : Nat) :
    (0xffff0000 : BitVec 64).getLsbD i = (decide (i < 32) && !decide (i < 16)) := by
  have shifted : (0xffff0000 : BitVec 64) = (0xffff : BitVec 64) <<< 16 := by decide
  rw [shifted, BitVec.getLsbD_shiftLeft, getLsbD_mask16]
  by_cases low : i < 16
  · simp [low]
  · by_cases inside : i < 32
    · have small : i < 64 := by omega
      have rest : i - 16 < 16 := by omega
      simp [low, inside, small, rest]
    · have rest : ¬ i - 16 < 16 := by omega
      simp [inside, rest]

/-- A word whose bits are those of the number is the number's field. -/
theorem word_eq_field {w : BitVec 32} {number shift : Nat}
    (bits : ∀ i < 32, w.getLsbD i = number.testBit (shift + i)) :
    w.toNat = field number shift 32 := by
  apply Nat.eq_of_testBit_eq
  intro i
  rw [testBit_field]
  by_cases inside : i < 32
  · simp only [inside, decide_true, Bool.true_and, ← bits i inside]
    rfl
  · simp only [inside, decide_false, Bool.false_and]
    exact BitVec.getLsbD_of_ge _ _ (by omega)

/-- A number of 80 bits from its three words. -/
theorem number_of_fields {number : Nat} (small : number < 2 ^ 80) :
    field number 64 32 % 2 ^ 16 * 2 ^ 64 + field number 32 32 * 2 ^ 32 + field number 0 32 =
      number := by
  simp only [field, Nat.shiftRight_eq_div_pow]
  norm_num at small ⊢
  omega

/-- The three words are the fields of the number. -/
structure Words.Hold (w : Words) (number : Nat) : Prop where
  cdw2 : w.cdw2.toNat = field number 64 32
  cdw3 : w.cdw3.toNat = field number 32 32
  cdw14 : w.cdw14.toNat = field number 0 32

theorem words16b_hold (le : sts ≤ 32) (fits : stag.toNat < 2 ^ sts)
    (room : rtag.toNat < 2 ^ (32 - sts)) :
    ∃ w, words16b sts rtag stag = .ok w ∧ w.Hold (both 32 sts rtag stag) := by
  have small := both_lt fits room le
  have above : ∀ shift, 32 ≤ shift → field (both 32 sts rtag stag) shift 32 = 0 := by
    intro shift far
    rw [field, Nat.shiftRight_eq_div_pow, Nat.div_eq_of_lt, Nat.zero_mod]
    exact lt_of_lt_of_le small (Nat.pow_le_pow_right Nat.two_pos far)
  have run : words16b sts rtag stag = .ok ⟨0, 0, (rtag &&& 0xffffffff).setWidth 32 |||
      ((stag <<< (32 - sts)) &&& 0xffffffff).setWidth 32⟩ := by
    rw [words16b, shl_ok (m := 32 - sts) (by omega) (by omega)]
    rfl
  refine ⟨_, run, ?_⟩
  constructor
  · rw [above 64 (by decide)]
    rfl
  · rw [above 32 (by decide)]
    rfl
  · apply word_eq_field
    intro i inside
    rw [Nat.zero_add, testBit_both room]
    have low : i < 64 := by omega
    simp only [BitVec.getLsbD_or, BitVec.getLsbD_setWidth, BitVec.getLsbD_and, getLsbD_mask32,
      BitVec.getLsbD_shiftLeft, inside, low, decide_true, Bool.true_and, Bool.and_true]
    by_cases below : i < 32 - sts
    · simp [below]
    · rw [getLsbD_past room (by omega)]
      simp [below]

theorem words32b_hold (ge : 16 < sts) (le : sts ≤ 64) (fits : stag.toNat < 2 ^ sts)
    (room : rtag.toNat < 2 ^ (80 - sts)) :
    ∃ w, words32b sts rtag stag = .ok w ∧ w.Hold (both 80 sts rtag stag) := by
  have run : words32b sts rtag stag = .ok
      ⟨((stag >>> (sts - 16)) &&& 0xffff).setWidth 32,
        ((rtag >>> 32) &&& 0xffffffff).setWidth 32 |||
          ((if 48 ≤ sts then stag >>> (sts - 48) else stag <<< (48 - sts)) &&&
            0xffffffff).setWidth 32,
        (rtag &&& 0xffffffff).setWidth 32 |||
          ((stag <<< (80 - sts)) &&& 0xffff0000).setWidth 32⟩ := by
    rw [words32b, shr_ok (m := sts - 16) (by omega) (by omega),
      shl_ok (m := 80 - sts) (by omega) (by omega)]
    by_cases large : 48 ≤ sts
    · simp only [if_pos large, shr_ok (n := sts - 48) (m := sts - 48) (by omega) (by omega)]
      rfl
    · simp only [if_neg large, shl_ok (n := 48 - sts) (m := 48 - sts) (by omega) (by omega)]
      rfl
  refine ⟨_, run, ?_⟩
  constructor
  · apply word_eq_field
    intro i inside
    have above : ¬ 64 + i < 80 - sts := by omega
    rw [testBit_both room, if_neg above]
    have place : 64 + i - (80 - sts) = sts - 16 + i := by omega
    simp only [BitVec.getLsbD_setWidth, BitVec.getLsbD_and, getLsbD_mask16,
      BitVec.getLsbD_ushiftRight, inside, decide_true, Bool.true_and, place]
    by_cases masked : i < 16
    · simp [masked]
    · rw [getLsbD_past fits (by omega), Bool.false_and]
  · apply word_eq_field
    intro i inside
    rw [testBit_both room]
    have low : i < 64 := by omega
    simp only [BitVec.getLsbD_or, BitVec.getLsbD_setWidth, BitVec.getLsbD_and, getLsbD_mask32,
      BitVec.getLsbD_ushiftRight, inside, decide_true, Bool.true_and, Bool.and_true]
    by_cases below : 32 + i < 80 - sts
    · have small : ¬ 48 ≤ sts := by omega
      have early : i < 48 - sts := by omega
      simp [below, small, early]
    · rw [getLsbD_past room (by omega), Bool.false_or, if_neg below]
      by_cases large : 48 ≤ sts
      · have place : 32 + i - (80 - sts) = sts - 48 + i := by omega
        rw [if_pos large, BitVec.getLsbD_ushiftRight, place]
      · have place : 32 + i - (80 - sts) = i - (48 - sts) := by omega
        have late : ¬ i < 48 - sts := by omega
        rw [if_neg large, BitVec.getLsbD_shiftLeft, place]
        simp [low, late]
  · apply word_eq_field
    intro i inside
    rw [Nat.zero_add, testBit_both room]
    have low : i < 64 := by omega
    simp only [BitVec.getLsbD_or, BitVec.getLsbD_setWidth, BitVec.getLsbD_and, getLsbD_mask32,
      getLsbD_maskHigh16, BitVec.getLsbD_shiftLeft, inside, low, decide_true, Bool.true_and,
      Bool.and_true]
    by_cases below : i < 80 - sts
    · simp [below]
    · have high : ¬ i < 16 := by omega
      rw [getLsbD_past room (by omega)]
      simp [below, high]

theorem words64b_hold (le : sts ≤ 48) (fits : stag.toNat < 2 ^ sts)
    (room : rtag.toNat < 2 ^ (48 - sts)) :
    ∃ w, words64b sts rtag stag = .ok w ∧ w.Hold (both 48 sts rtag stag) := by
  have run : words64b sts rtag stag = .ok
      ⟨0, ((rtag >>> 32) &&& 0xffff).setWidth 32 |||
          ((if 16 ≤ sts then stag >>> (sts - 16) else stag <<< (16 - sts)) &&&
            0xffff).setWidth 32,
        (rtag &&& 0xffffffff).setWidth 32 |||
          ((stag <<< (48 - sts)) &&& 0xffffffff).setWidth 32⟩ := by
    rw [words64b, shl_ok (m := 48 - sts) (by omega) (by omega)]
    by_cases large : 16 ≤ sts
    · simp only [if_pos large, shr_ok (n := sts - 16) (m := sts - 16) (by omega) (by omega)]
      rfl
    · simp only [if_neg large, shl_ok (n := 16 - sts) (m := 16 - sts) (by omega) (by omega)]
      rfl
  refine ⟨_, run, ?_⟩
  constructor
  · rw [field, Nat.shiftRight_eq_div_pow, Nat.div_eq_of_lt, Nat.zero_mod]
    · rfl
    · exact lt_of_lt_of_le (both_lt fits room le) (by decide)
  · apply word_eq_field
    intro i inside
    rw [testBit_both room]
    have low : i < 64 := by omega
    simp only [BitVec.getLsbD_or, BitVec.getLsbD_setWidth, BitVec.getLsbD_and, getLsbD_mask16,
      BitVec.getLsbD_ushiftRight, inside, decide_true, Bool.true_and]
    by_cases below : 32 + i < 48 - sts
    · have small : ¬ 16 ≤ sts := by omega
      have early : i < 16 - sts := by omega
      have masked : i < 16 := by omega
      simp [below, small, early, masked]
    · rw [getLsbD_past room (by omega), Bool.false_and, Bool.false_or, if_neg below]
      by_cases masked : i < 16
      · by_cases large : 16 ≤ sts
        · have place : 32 + i - (48 - sts) = sts - 16 + i := by omega
          rw [if_pos large, BitVec.getLsbD_ushiftRight, place]
          simp [masked]
        · have place : 32 + i - (48 - sts) = i - (16 - sts) := by omega
          have late : ¬ i < 16 - sts := by omega
          rw [if_neg large, BitVec.getLsbD_shiftLeft, place]
          simp [low, late, masked]
      · rw [getLsbD_past fits (by omega)]
        simp [masked]
  · apply word_eq_field
    intro i inside
    rw [Nat.zero_add, testBit_both room]
    have low : i < 64 := by omega
    simp only [BitVec.getLsbD_or, BitVec.getLsbD_setWidth, BitVec.getLsbD_and, getLsbD_mask32,
      BitVec.getLsbD_shiftLeft, inside, low, decide_true, Bool.true_and, Bool.and_true]
    by_cases below : i < 48 - sts
    · simp [below]
    · rw [getLsbD_past room (by omega)]
      simp [below]

/-- At this size `80 - sts` is the width of the storage tag's type. -/
theorem words32b_undefined : words32b 16 rtag stag = .error .shift := rfl

theorem tagWords_hold {pif : Pi.Pif} (legal : LegalSts pif sts)
    (shifts : ¬ (pif = .guard32b ∧ sts = 16)) (fits : stag.toNat < 2 ^ sts)
    (room : rtag.toNat < 2 ^ (tagWidth pif - sts)) :
    ∃ w, tagWords pif sts rtag stag = .ok w ∧ w.Hold (both (tagWidth pif) sts rtag stag) := by
  obtain ⟨ge, le⟩ := legal
  cases pif with
  | guard16b => exact words16b_hold le fits room
  | guard32b =>
      have ge : 16 ≤ sts := ge
      have other : sts ≠ 16 := fun h => shifts ⟨rfl, h⟩
      exact words32b_hold (by omega) le fits room
  | guard64b => exact words64b_hold le fits room

end Words

/-! ### The command -/

theorem Sqe.tags_of_hold {w : Words} {number : Nat} (hold : w.Hold number)
    (small : number < 2 ^ 80) (atag atagMask : BitVec 16) :
    Sqe.tags ⟨w.cdw2, w.cdw3, w.cdw14, atag, atagMask⟩ = number := by
  rw [Sqe.tags, hold.cdw2, hold.cdw3, hold.cdw14]
  exact number_of_fields small

theorem lossless_of_tags {width sts : Nat} {rtag stag : BitVec 64} {sqe : Sqe}
    (room : rtag.toNat < 2 ^ (width - sts)) (tags : sqe.tags = both width sts rtag stag) :
    Lossless width sts rtag stag sqe := by
  rw [both] at tags
  refine ⟨tags, ?_, ?_⟩
  · rw [tags, Nat.add_comm, Nat.add_mul_div_right _ _ (Nat.two_pow_pos _),
      Nat.div_eq_of_lt room, Nat.zero_add]
  · rw [tags, Nat.add_comm, Nat.add_mul_mod_self_right, Nat.mod_eq_of_lt room]

/-- Both tags reach the command by defined shifts only, unless the namespace has the 32b guard and a
storage tag of 16 bits. -/
theorem setTags_lossless_iff {nsList : List Ns} {nsid : Nat} {ns : Ns} {pif : Pi.Pif} (sqe : Sqe)
    (atag atagMask : BitVec 16) {rtag stag : BitVec 64} (found : nsGet nsList nsid = some ns)
    (format : ns.pif = some pif) (legal : LegalSts pif ns.sts)
    (fits : stag.toNat < 2 ^ ns.sts) (room : rtag.toNat < 2 ^ (tagWidth pif - ns.sts)) :
    (∃ sqe', setTags nsList nsid sqe atag atagMask rtag stag = .ok (.zero, sqe') ∧
        Lossless (tagWidth pif) ns.sts rtag stag sqe') ↔
      ¬ (pif = .guard32b ∧ ns.sts = 16) := by
  have call : setTags nsList nsid sqe atag atagMask rtag stag =
      (tagWords pif ns.sts rtag stag).map
        (fun w => (.zero, ⟨w.cdw2, w.cdw3, w.cdw14, atag, atagMask⟩)) := by
    rw [setTags, found]
    simp only [format]
    rfl
  rw [call]
  constructor
  · rintro ⟨sqe', done, -⟩ ⟨rfl, size⟩
    rw [size, tagWords, words32b_undefined] at done
    cases done
  · intro shifts
    rcases tagWords_hold legal shifts fits room with ⟨w, words, hold⟩
    refine ⟨_, by rw [words]; rfl, lossless_of_tags room (Sqe.tags_of_hold hold ?_ _ _)⟩
    have width : ns.sts ≤ tagWidth pif ∧ tagWidth pif ≤ 80 := by
      have le := legal.2
      revert le
      cases pif <;> simp only [maxSts, tagWidth] <;> omega
    exact lt_of_lt_of_le (both_lt fits room width.1) (Nat.pow_le_pow_right Nat.two_pos width.2)

/-- Both tags have their largest value. -/
theorem setTags_lossless_iff_largest :
    ∃ sqe', setTags [⟨1, some .guard32b, 48⟩] 1 ⟨0, 0, 0, 0, 0⟩ 7 0xff 0xffffffff
        0xffffffffffff = .ok (.zero, sqe') ∧
      Lossless 80 48 0xffffffff 0xffffffffffff sqe' :=
  (setTags_lossless_iff ⟨0, 0, 0, 0, 0⟩ 7 0xff
    (show nsGet [⟨1, some .guard32b, 48⟩] 1 = some ⟨1, some .guard32b, 48⟩ from rfl)
    (show (⟨1, some .guard32b, 48⟩ : Ns).pif = some .guard32b from rfl)
    (by decide) (by decide) (by decide)).mpr (by decide)

/-- A legal size and a tag that fits, and a shift by 64. -/
theorem setTags_shift_by_width :
    LegalSts .guard32b 16 ∧ (1 : BitVec 64).toNat < 2 ^ 16 ∧
      (2 : BitVec 64).toNat < 2 ^ (80 - 16) ∧
      setTags [⟨1, some .guard32b, 16⟩] 1 ⟨0, 0, 0, 0, 0⟩ 0 0 2 1 = .error .shift := by
  decide

end Unvmed.Tags
