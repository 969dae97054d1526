import Mathlib.Algebra.Order.Ring.Nat
import Mathlib.Data.List.Basic
import Mathlib.Tactic.Ring

/-!
Interleaving two sequences in chunks of fixed sizes.

`interleave p q n xs ys` takes `n` times `p` elements of `xs` and `q` elements of `ys`, in turn, and
`deinterleave p q n zs` sorts such a sequence back. On sequences of the right lengths they are
inverse to each other: `deinterleave_interleave`, `interleave_deinterleave`.
-/

namespace Lib

variable {α : Type*}

def interleave (p q : ℕ) : ℕ → List α → List α → List α
  | 0, _, _ => []
  | n + 1, xs, ys => xs.take p ++ (ys.take q ++ interleave p q n (xs.drop p) (ys.drop q))

def deinterleave (p q : ℕ) : ℕ → List α → List α × List α
  | 0, _ => ([], [])
  | n + 1, zs =>
      let (xs, ys) := deinterleave p q n ((zs.drop p).drop q)
      (zs.take p ++ xs, (zs.drop p).take q ++ ys)

variable {p q n : ℕ} {xs ys zs chunk chunk' : List α}

/-- The first chunk of each, then the others. -/
theorem interleave_append (len : chunk.length = p) (len' : chunk'.length = q) :
    interleave p q (n + 1) (chunk ++ xs) (chunk' ++ ys) =
      chunk ++ (chunk' ++ interleave p q n xs ys) := by
  rw [interleave, List.take_left' len, List.take_left' len', List.drop_left' len,
    List.drop_left' len']

theorem deinterleave_append (len : chunk.length = p) (len' : chunk'.length = q) :
    deinterleave p q (n + 1) (chunk ++ (chunk' ++ zs)) =
      (chunk ++ (deinterleave p q n zs).1, chunk' ++ (deinterleave p q n zs).2) := by
  rw [deinterleave, List.take_left' len, List.drop_left' len, List.take_left' len',
    List.drop_left' len']

theorem exists_append {k : ℕ} (len : zs.length = p + k) :
    ∃ chunk rest, zs = chunk ++ rest ∧ chunk.length = p ∧ rest.length = k := by
  refine ⟨zs.take p, zs.drop p, (List.take_append_drop p zs).symm, ?_, ?_⟩
  · rw [List.length_take]
    omega
  · rw [List.length_drop]
    omega

/-- A sequence that has `n + 1` chunks starts with one. -/
theorem exists_chunk (len : zs.length = (n + 1) * p) :
    ∃ chunk rest, zs = chunk ++ rest ∧ chunk.length = p ∧ rest.length = n * p := by
  rw [Nat.succ_mul, Nat.add_comm] at len
  exact exists_append len

theorem length_interleave (len : xs.length = n * p) (len' : ys.length = n * q) :
    (interleave p q n xs ys).length = n * (p + q) := by
  induction n generalizing xs ys with
  | zero => simp [interleave]
  | succ n ih =>
      obtain ⟨chunk, xs, rfl, first, rest⟩ := exists_chunk len
      obtain ⟨chunk', ys, rfl, first', rest'⟩ := exists_chunk len'
      rw [interleave_append first first', List.length_append, List.length_append, ih rest rest',
        first, first']
      ring

theorem deinterleave_interleave (len : xs.length = n * p) (len' : ys.length = n * q) :
    deinterleave p q n (interleave p q n xs ys) = (xs, ys) := by
  induction n generalizing xs ys with
  | zero =>
      rw [Nat.zero_mul, List.length_eq_zero_iff] at len len'
      rw [len, len', deinterleave]
  | succ n ih =>
      obtain ⟨chunk, xs, rfl, first, rest⟩ := exists_chunk len
      obtain ⟨chunk', ys, rfl, first', rest'⟩ := exists_chunk len'
      rw [interleave_append first first', deinterleave_append first first', ih rest rest']

theorem interleave_deinterleave (len : zs.length = n * (p + q)) :
    interleave p q n (deinterleave p q n zs).1 (deinterleave p q n zs).2 = zs := by
  induction n generalizing zs with
  | zero =>
      rw [Nat.zero_mul, List.length_eq_zero_iff] at len
      rw [len, interleave]
  | succ n ih =>
      obtain ⟨both, zs, rfl, first, rest⟩ := exists_chunk len
      obtain ⟨chunk, chunk', rfl, head, tail⟩ := exists_append first
      rw [List.append_assoc, deinterleave_append head tail, interleave_append head tail, ih rest]

/-- What is sorted back has the right lengths. -/
theorem length_deinterleave (len : zs.length = n * (p + q)) :
    (deinterleave p q n zs).1.length = n * p ∧ (deinterleave p q n zs).2.length = n * q := by
  induction n generalizing zs with
  | zero => simp [deinterleave]
  | succ n ih =>
      obtain ⟨both, zs, rfl, first, rest⟩ := exists_chunk len
      obtain ⟨chunk, chunk', rfl, head, tail⟩ := exists_append first
      obtain ⟨left, right⟩ := ih rest
      rw [List.append_assoc, deinterleave_append head tail]
      constructor
      · rw [List.length_append, head, left]
        ring
      · rw [List.length_append, tail, right]
        ring

end Lib
