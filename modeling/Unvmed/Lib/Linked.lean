import Mathlib.Data.Fintype.Pigeonhole
import Mathlib.Data.List.Basic
import Mathlib.Logic.Function.Basic

/-!
Singly linked chains in a memory of `next` pointers.

`Linked next top xs` says that following `next` from `top` visits exactly the
nodes `xs`, in order, and ends. Writing the `next` field of a node that is not
in the chain keeps it (`Linked.update`), and the nodes of the chain are the
ones that can be reached from `top` (`Linked.reaches_iff`). On a finite type a
chain comes to an end if and only if no node comes twice before (`exists_iterate_iff`).
-/

namespace Lib

variable {α : Type*}

/-- Following `next` from `top` visits `xs` and ends. -/
def Linked (next : α → Option α) : Option α → List α → Prop
  | top, [] => top = none
  | top, x :: xs => top = some x ∧ Linked next (next x) xs

/-- `x` is reached from `top` by following `next`. -/
inductive Reaches (next : α → Option α) : Option α → α → Prop where
  | here (x : α) : Reaches next (some x) x
  | there {x y : α} : Reaches next (next x) y → Reaches next (some x) y

theorem Linked.congr {next next' : α → Option α} {xs : List α} {top : Option α}
    (same : ∀ x ∈ xs, next' x = next x) (h : Linked next top xs) : Linked next' top xs := by
  induction xs generalizing top with
  | nil => exact h
  | cons x xs ih =>
      refine ⟨h.1, ?_⟩
      rw [same x List.mem_cons_self]
      exact ih (fun y hy => same y (List.mem_cons_of_mem _ hy)) h.2

/-- A write to the `next` field of a node outside the chain keeps the chain. -/
theorem Linked.update [DecidableEq α] {next : α → Option α} {top : Option α} {xs : List α} {y : α}
    (h : Linked next top xs) (hy : y ∉ xs) (v : Option α) :
    Linked (Function.update next y v) top xs :=
  Linked.congr (fun x hx => Function.update_of_ne (by rintro rfl; exact hy hx) _ _) h

/-- A chain whose top is a node starts with that node. -/
theorem Linked.uncons {next : α → Option α} {x : α} {xs : List α} (h : Linked next (some x) xs) :
    ∃ rest, xs = x :: rest ∧ Linked next (next x) rest := by
  cases xs with
  | nil => simp [Linked] at h
  | cons y ys =>
      obtain ⟨top, rest⟩ := h
      cases top
      exact ⟨ys, rfl, rest⟩

theorem Linked.reaches_iff {next : α → Option α} {xs : List α} {top : Option α} {y : α}
    (h : Linked next top xs) : Reaches next top y ↔ y ∈ xs := by
  induction xs generalizing top with
  | nil =>
      cases h
      constructor
      · rintro ⟨⟩
      · intro mem
        cases mem
  | cons x xs ih =>
      obtain ⟨rfl, rest⟩ := h
      rw [List.mem_cons, ← ih rest]
      constructor
      · intro reach
        cases reach with
        | here => exact Or.inl rfl
        | there tail => exact Or.inr tail
      · rintro (rfl | tail)
        · exact .here _
        · exact .there tail

/-- On a finite type the iterates come to `p` if and only if none comes twice before. -/
theorem exists_iterate_iff [Finite α] {f : α → α} {x : α} {p : α → Prop} :
    (∃ k, p (f^[k] x)) ↔ ∀ i j, i < j → f^[i] x = f^[j] x → ∃ k < j, p (f^[k] x) := by
  constructor
  · rintro ⟨k, hk⟩ i j lt same
    induction k using Nat.strong_induction_on with
    | _ k ih =>
        rcases Nat.lt_or_ge k j with early | late
        · exact ⟨k, early, hk⟩
        · refine ih (k - (j - i)) (by omega) ?_
          have back : f^[k - (j - i)] x = f^[k] x := by
            calc f^[k - (j - i)] x = f^[(k - j) + i] x := by congr 1; omega
              _ = f^[k - j] (f^[i] x) := Function.iterate_add_apply f _ _ x
              _ = f^[k - j] (f^[j] x) := by rw [same]
              _ = f^[(k - j) + j] x := (Function.iterate_add_apply f _ _ x).symm
              _ = f^[k] x := by congr 1; omega
          rwa [back]
  · intro repeats
    obtain ⟨i, j, ne, same⟩ := Finite.exists_ne_map_eq_of_infinite fun k => f^[k] x
    rcases Nat.lt_or_gt_of_ne ne with lt | lt
    · obtain ⟨k, -, hk⟩ := repeats i j lt same
      exact ⟨k, hk⟩
    · obtain ⟨k, -, hk⟩ := repeats j i lt same.symm
      exact ⟨k, hk⟩

end Lib
