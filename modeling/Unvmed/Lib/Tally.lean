import Mathlib.Algebra.BigOperators.Fin
import Mathlib.Algebra.Order.BigOperators.Group.Finset

/-!
Counting over a finite family of agents.

`tally w f` adds up what each agent `f i` is worth under the weight `w`. With the
weight "this program counter owns resource `r`", an ownership invariant is one
equation between the tally and the shared state, and a step of one agent changes
the tally by the difference of two weights (`tally_update`).
-/

namespace Lib

variable {ι τ : Type*} [Fintype ι]

/-- The total weight of the family. -/
def tally (w : τ → Nat) (f : ι → τ) : Nat := ∑ i, w (f i)

theorem le_tally (w : τ → Nat) (f : ι → τ) (i : ι) : w (f i) ≤ tally w f :=
  Finset.single_le_sum (f := fun i => w (f i)) (fun _ _ => Nat.zero_le _) (Finset.mem_univ i)

theorem tally_le {w w' : τ → Nat} (h : ∀ x, w x ≤ w' x) (f : ι → τ) : tally w f ≤ tally w' f :=
  Finset.sum_le_sum fun i _ => h (f i)

theorem tally_add (w w' : τ → Nat) (f : ι → τ) :
    tally (fun x => w x + w' x) f = tally w f + tally w' f :=
  Finset.sum_add_distrib

theorem tally_eq_zero {w : τ → Nat} {f : ι → τ} (h : ∀ i, w (f i) = 0) : tally w f = 0 :=
  Finset.sum_eq_zero fun i _ => h i

variable [DecidableEq ι]

/-- One agent moves: its old weight leaves the tally, its new weight enters. -/
theorem tally_update (w : τ → Nat) (f : ι → τ) (i : ι) (x : τ) :
    tally w (Function.update f i x) + w (f i) = tally w f + w x := by
  have moved : tally w (Function.update f i x) = ∑ j, Function.update (w ∘ f) i (w x) j := by
    rw [← Function.comp_update]
    rfl
  have split := Finset.sum_update_of_mem (Finset.mem_univ i) (w ∘ f) (w x)
  have whole := Finset.sum_eq_add_sum_sdiff_singleton_of_mem (Finset.mem_univ i) (w ∘ f)
  have same : tally w f = ∑ j, (w ∘ f) j := rfl
  simp only [Function.comp_apply] at *
  omega

/-- Where the tally is at most 1, only one agent has weight. -/
theorem tally_sole {w : τ → Nat} {f : ι → τ} {i j : ι} (h : tally w f ≤ 1) (own : w (f i) = 1)
    (other : j ≠ i) : w (f j) = 0 := by
  have both : ∑ k ∈ {i, j}, w (f k) ≤ tally w f :=
    Finset.sum_le_sum_of_subset (Finset.subset_univ _)
  rw [Finset.sum_pair other.symm] at both
  omega

/-- The total weight of the first `n` members of a sequence. -/
def tallyTo (n : Nat) (w : τ → Nat) (f : Nat → τ) : Nat := tally w fun i : Fin n => f i

omit [Fintype ι] [DecidableEq ι] in
theorem tallyTo_update {n k : Nat} (hk : k < n) (w : τ → Nat) (f : Nat → τ) (x : τ) :
    tallyTo n w (Function.update f k x) + w (f k) = tallyTo n w f + w x := by
  have moved : (fun i : Fin n => Function.update f k x i) =
      Function.update (fun i : Fin n => f i) ⟨k, hk⟩ x := by
    funext i
    by_cases same : (i : Nat) = k
    · have : i = ⟨k, hk⟩ := Fin.ext same
      subst this
      simp
    · rw [Function.update_of_ne same, Function.update_of_ne (fun h => same (congrArg Fin.val h))]
  rw [tallyTo, moved]
  exact tally_update w _ _ x

omit [Fintype ι] [DecidableEq ι] in
theorem le_tallyTo {n k : Nat} (hk : k < n) (w : τ → Nat) (f : Nat → τ) : w (f k) ≤ tallyTo n w f :=
  le_tally w (fun i : Fin n => f i) ⟨k, hk⟩

omit [Fintype ι] [DecidableEq ι] in
theorem tallyTo_congr {n : Nat} {w : τ → Nat} {f g : Nat → τ} (h : ∀ k, w (f k) = w (g k)) :
    tallyTo n w f = tallyTo n w g := by
  unfold tallyTo tally
  exact Finset.sum_congr rfl fun i _ => h i

omit [Fintype ι] [DecidableEq ι] in
theorem tallyTo_eq_zero {n : Nat} {w : τ → Nat} {f : Nat → τ} (h : ∀ k, w (f k) = 0) :
    tallyTo n w f = 0 :=
  tally_eq_zero fun i => h i

end Lib
