import Mathlib

/-!
Choosing by shares.

A list of shares splits the numbers below its sum into intervals, one after another. A draw chooses
the share whose interval it is in.

* `pick_eq_some_iff`: the interval of a share.
* `pick_isSome_iff`, `card_pick`: every draw below the sum chooses a share, and a share is chosen by
  as many draws as it says.
-/

namespace Lib

/-- The first share that begins at or before `r` and ends after it. -/
def pick : ℕ → List ℕ → Option ℕ
  | _, [] => none
  | r, w :: ws => if r < w then some 0 else (pick (r - w) ws).map (· + 1)

section Share

variable {r i : ℕ} {ws : List ℕ}

theorem pick_isSome_iff : (pick r ws).isSome ↔ r < ws.sum := by
  induction ws generalizing r with
  | nil => simp [pick]
  | cons w ws ih =>
      rw [pick, List.sum_cons]
      split
      · rename_i first
        exact iff_of_true rfl (by omega)
      · rename_i later
        rw [Option.isSome_map, ih]
        omega

theorem pick_eq_some_iff :
    pick r ws = some i ↔ (ws.take i).sum ≤ r ∧ r < (ws.take (i + 1)).sum := by
  induction ws generalizing r i with
  | nil => simp [pick]
  | cons w ws ih =>
      rw [pick]
      cases i with
      | zero =>
          simp only [List.take_zero, List.sum_nil, Nat.zero_le, true_and, Nat.zero_add,
            List.take_succ_cons, List.sum_cons, Nat.add_zero]
          split
          · rename_i first
            exact iff_of_true rfl first
          · rename_i later
            simpa using later
      | succ i =>
          rw [List.take_succ_cons, List.take_succ_cons, List.sum_cons, List.sum_cons]
          split
          · rename_i first
            refine iff_of_false (by simp) ?_
            omega
          · rename_i later
            have shift : (pick (r - w) ws).map (· + 1) = some (i + 1) ↔
                pick (r - w) ws = some i := by
              cases pick (r - w) ws <;> simp
            rw [shift, ih]
            omega

theorem pick_lt (chosen : pick r ws = some i) : i < ws.length := by
  obtain ⟨ge, lt⟩ := pick_eq_some_iff.mp chosen
  by_contra outside
  rw [List.take_of_length_le (by omega)] at ge
  rw [List.take_of_length_le (by omega)] at lt
  omega

/-- A share is chosen by as many draws as it says. -/
theorem card_pick (inside : i < ws.length) :
    ((Finset.range ws.sum).filter fun r => pick r ws = some i).card = ws[i] := by
  have next : (ws.take (i + 1)).sum = (ws.take i).sum + ws[i] := by
    rw [List.take_add_one, List.getElem?_eq_getElem inside, List.sum_append, Option.toList_some,
      List.sum_singleton]
  have within : (ws.take (i + 1)).sum ≤ ws.sum := by
    rw [← List.sum_take_add_sum_drop ws (i + 1)]
    exact Nat.le_add_right _ _
  have interval : ((Finset.range ws.sum).filter fun r => pick r ws = some i) =
      Finset.Ico (ws.take i).sum (ws.take (i + 1)).sum := by
    ext r
    rw [Finset.mem_filter, Finset.mem_range, pick_eq_some_iff, Finset.mem_Ico]
    constructor
    · exact fun h => h.2
    · exact fun h => ⟨h.2.trans_le within, h⟩
  rw [interval, Nat.card_Ico, next]
  omega

end Share

end Lib
