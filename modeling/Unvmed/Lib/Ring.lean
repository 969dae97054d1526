import Mathlib.Data.List.Basic
import Mathlib.Data.List.Range
import Mathlib.Logic.Function.Basic

/-!
Windows of a ring.

A ring of `n` slots has a window of `k` entries from `start` on; it ends at the slot `ringStop`.
With two positions alone a full ring looks like an empty one, so the rules ask for `k ≤ n - 1`:
then the end tells how many entries there are (`ringStop_cases`) and is not met inside the window
(`ringStop_ne`). One more entry is written at the end (`window_push`), and the window is walked
from its start (`window_succ`).
-/

namespace Lib

variable {α : Type*}

/-- The slot behind `k` entries from `start` on. -/
def ringStop (n start k : ℕ) : ℕ := (start + k) % n

/-- The `k` entries from `start` on. -/
def window (mem : ℕ → α) (n start k : ℕ) : List α :=
  (List.range k).map fun i => mem (ringStop n start i)

section Rules

variable {mem : ℕ → α} {n start k : ℕ}

@[simp] theorem ringStop_mod : ringStop n start k % n = ringStop n start k := Nat.mod_mod _ _

theorem ringStop_zero (inRing : start % n = start) : ringStop n start 0 = start := inRing

theorem ringStop_succ : (ringStop n start k + 1) % n = ringStop n start (k + 1) :=
  Nat.mod_add_mod _ _ _

/-- Starting one slot later. -/
theorem ringStop_next : ringStop n ((start + 1) % n) k = ringStop n start (k + 1) := by
  rw [ringStop, ringStop, Nat.mod_add_mod, Nat.add_assoc, Nat.add_comm 1]

/-- The window wraps or it does not. -/
theorem ringStop_cases (inRing : start % n = start) (room : k ≤ n - 1) :
    ringStop n start k = start + k ∨
      start < n ∧ n ≤ start + k ∧ ringStop n start k = start + k - n := by
  rcases Nat.eq_zero_or_pos n with rfl | pos
  · exact .inl (Nat.mod_zero _)
  · have less : start < n := inRing ▸ Nat.mod_lt start pos
    rcases Nat.lt_or_ge (start + k) n with inside | wraps
    · exact .inl (Nat.mod_eq_of_lt inside)
    · refine .inr ⟨less, wraps, ?_⟩
      rw [ringStop, Nat.mod_eq_sub_mod wraps, Nat.mod_eq_of_lt (by omega)]

/-- The slots of a window are different from its end. -/
theorem ringStop_ne {i : ℕ} (inRing : start % n = start) (room : k ≤ n - 1) (before : i < k) :
    ringStop n start i ≠ ringStop n start k := by
  rcases ringStop_cases inRing room with stop | ⟨less, wraps, stop⟩ <;>
    rcases ringStop_cases inRing (k := i) (by omega) with slot | ⟨less', wraps', slot⟩ <;>
    omega

/-- An entry written at the end is the last one of the longer window. -/
theorem window_push (inRing : start % n = start) (room : k ≤ n - 1) (x : α) :
    window (Function.update mem (ringStop n start k) x) n start (k + 1) =
      window mem n start k ++ [x] := by
  rw [window, List.range_succ, List.map_append, List.map_singleton, Function.update_self]
  congr 1
  refine List.map_congr_left fun i mem_ => ?_
  have before : i < k := List.mem_range.mp mem_
  exact Function.update_of_ne (ringStop_ne inRing room before) x mem

/-- The first entry, then the window one slot later. -/
theorem window_succ (inRing : start % n = start) :
    window mem n start (k + 1) = mem start :: window mem n ((start + 1) % n) k := by
  rw [window, List.range_succ_eq_map, List.map_cons, List.map_map, ringStop_zero inRing]
  congr 1
  refine List.map_congr_left fun i _ => ?_
  rw [ringStop_next]
  rfl

end Rules

end Lib
