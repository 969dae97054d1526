import Mathlib

/-!
Byte memory.

`Mem` gives every address a byte. `putBe w m a n` stores the low `w` bytes of `n` at `a`, most
significant first, and `getBe` reads them back. A store changes nothing outside its `w` bytes,
and a read depends on nothing outside them.
-/

namespace Lib

abbrev Byte := BitVec 8

abbrev Mem := Nat → Byte

def putBe : Nat → Mem → Nat → Nat → Mem
  | 0, m, _, _ => m
  | w + 1, m, a, n => Function.update (putBe w m a (n / 256)) (a + w) (BitVec.ofNat 8 n)

def getBe : Nat → Mem → Nat → Nat
  | 0, _, _ => 0
  | w + 1, m, a => getBe w m a * 256 + (m (a + w)).toNat

/-- The `n` bytes at `a`. -/
def slice (m : Mem) (a n : Nat) : List Byte := (List.range' a n).map m

/-- `memcpy` of `n` bytes from the start of `src` to `a`. -/
def copy (dst : Mem) (a : Nat) (src : Mem) (n : Nat) : Mem :=
  fun i => if a ≤ i ∧ i < a + n then src (i - a) else dst i

variable {m m' : Mem} {w a : Nat}

theorem putBe_other {i n : Nat} (outside : i < a ∨ a + w ≤ i) : putBe w m a n i = m i := by
  induction w generalizing n with
  | zero => rfl
  | succ w ih =>
      have last : i ≠ a + w := by omega
      rw [putBe, Function.update_of_ne last]
      exact ih (by omega)

theorem getBe_congr (same : ∀ i, a ≤ i → i < a + w → m i = m' i) :
    getBe w m a = getBe w m' a := by
  induction w with
  | zero => rfl
  | succ w ih =>
      have before := ih fun i low high => same i low (by omega)
      rw [getBe, getBe, same (a + w) (by omega) (by omega), before]

theorem getBe_putBe (w n : Nat) : getBe w (putBe w m a n) a = n % 256 ^ w := by
  induction w generalizing n with
  | zero => exact (Nat.mod_one n).symm
  | succ w ih =>
      have before : getBe w (putBe (w + 1) m a n) a = getBe w (putBe w m a (n / 256)) a := by
        refine getBe_congr fun i _ high => ?_
        rw [putBe, Function.update_of_ne (by omega)]
      have split : n % 256 ^ (w + 1) = n % 256 + 256 * (n / 256 % 256 ^ w) := by
        rw [pow_succ', Nat.mod_mul]
      rw [getBe, before, ih (n / 256), putBe, Function.update_self, BitVec.toNat_ofNat,
        split]
      omega

/-- A store elsewhere is not seen. -/
theorem getBe_putBe_of_disjoint {v b n : Nat} (apart : a + w ≤ b ∨ b + v ≤ a) :
    getBe w (putBe v m b n) a = getBe w m a :=
  getBe_congr fun _ _ _ => putBe_other (by omega)

theorem slice_congr {n : Nat} (same : ∀ i, a ≤ i → i < a + n → m i = m' i) :
    slice m a n = slice m' a n := by
  refine List.map_congr_left fun i mem => ?_
  obtain ⟨low, high⟩ := List.mem_range'_1.mp mem
  exact same i low high

theorem slice_eq_iff {b n : Nat} :
    slice m a n = slice m' b n ↔ ∀ i < n, m (a + i) = m' (b + i) := by
  unfold slice
  constructor
  · intro same i inside
    have at_ := congrArg (fun bytes : List Byte => bytes[i]?) same
    simpa [inside] using at_
  · intro same
    apply List.ext_getElem
    · simp
    · intro i inside _
      have inside : i < n := by simpa using inside
      simpa using same i inside

@[simp] theorem length_slice (m : Mem) (a n : Nat) : (slice m a n).length = n := by
  rw [slice, List.length_map, List.length_range']

theorem slice_add (m : Mem) (a n k : Nat) :
    slice m a (n + k) = slice m a n ++ slice m (a + n) k := by
  rw [slice, slice, slice, ← List.map_append, List.range'_append_1]

/-- What was copied is there. -/
theorem slice_copy (dst src : Mem) (a n : Nat) : slice (copy dst a src n) a n = slice src 0 n := by
  rw [slice_eq_iff]
  intro i inside
  rw [copy, if_pos ⟨by omega, by omega⟩, Nat.add_sub_cancel_left, Nat.zero_add]

/-- Storing what is there changes nothing. -/
theorem putBe_getBe (w : Nat) (m : Mem) (a : Nat) : putBe w m a (getBe w m a) = m := by
  induction w with
  | zero => rfl
  | succ w ih =>
      have lt := (m (a + w)).isLt
      have high : getBe (w + 1) m a / 256 = getBe w m a := by
        rw [getBe]
        omega
      have low : BitVec.ofNat 8 (getBe (w + 1) m a) = m (a + w) := by
        apply BitVec.eq_of_toNat_eq
        rw [getBe, BitVec.toNat_ofNat]
        omega
      rw [putBe, high, ih, low, Function.update_eq_self]

theorem putBe_eq_self_iff {n : Nat} : putBe w m a n = m ↔ getBe w m a = n % 256 ^ w := by
  constructor
  · intro same
    rw [← getBe_putBe (m := m) (a := a), same]
  · intro read
    have stored : putBe w m a n = putBe w m a (n % 256 ^ w) := by
      clear read
      induction w generalizing n with
      | zero => rfl
      | succ w ih =>
          have high : n % 256 ^ (w + 1) / 256 = n / 256 % 256 ^ w := by
            rw [pow_succ', Nat.mod_mul_right_div_self]
          have low : BitVec.ofNat 8 (n % 256 ^ (w + 1)) = BitVec.ofNat 8 n := by
            apply BitVec.eq_of_toNat_eq
            rw [BitVec.toNat_ofNat, BitVec.toNat_ofNat, pow_succ']
            exact Nat.mod_mul_right_mod n _ _
          rw [putBe, putBe, high, low, ih]
    rw [stored, ← read, putBe_getBe]

theorem putBe_inside {i n : Nat} (low : a ≤ i) (high : i < a + w) :
    putBe w m a n i = putBe w m' a n i := by
  induction w generalizing n with
  | zero => omega
  | succ w ih =>
      rw [putBe, putBe]
      by_cases last : i = a + w
      · rw [last, Function.update_self, Function.update_self]
      · rw [Function.update_of_ne last, Function.update_of_ne last]
        exact ih (by omega)

/-- A store forgets what was in its place. -/
theorem putBe_congr {n : Nat} (same : ∀ i, i < a ∨ a + w ≤ i → m i = m' i) :
    putBe w m a n = putBe w m' a n := by
  funext i
  by_cases inside : a ≤ i ∧ i < a + w
  · exact putBe_inside inside.1 inside.2
  · rw [putBe_other (by omega), putBe_other (by omega)]
    exact same i (by omega)

/-- Two stores in different places leave the memory as it is if and only if each of them does. -/
theorem stores_eq_self_iff {t u : Mem → Mem}
    (inside : ∀ m i, i < a ∨ a + w ≤ i → t m i = m i)
    (outside : ∀ m i, a ≤ i → i < a + w → u m i = m i) :
    u (t m) = m ↔ t m = m ∧ u m = m := by
  constructor
  · intro same
    have fixed : t m = m := by
      funext i
      by_cases here : a ≤ i ∧ i < a + w
      · rw [← outside (t m) i here.1 here.2, same]
      · exact inside m i (by omega)
    exact ⟨fixed, by rw [fixed] at same; exact same⟩
  · rintro ⟨fixed, fixed'⟩
    rw [fixed, fixed']

end Lib
