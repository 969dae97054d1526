import Mathlib.Data.List.Basic

/-!
A ledger of resources.

It has the resources that are held, and the releases of resources that were not. Releasing what was
acquired last undoes its acquisition (`releaseAll_acquireAll`); where nothing is held, every
release is wrong (`releaseAll_of_empty`).
-/

namespace Lib

structure Ledger (ρ : Type*) where
  held : List ρ := []
  /-- Released without being held, in order. -/
  wrong : List ρ := []
  deriving DecidableEq, Repr

namespace Ledger

variable {ρ : Type*} [DecidableEq ρ]

def acquire (l : Ledger ρ) (x : ρ) : Ledger ρ := { l with held := x :: l.held }

def release (l : Ledger ρ) (x : ρ) : Ledger ρ :=
  if x ∈ l.held then { l with held := l.held.erase x } else { l with wrong := l.wrong ++ [x] }

/-- Resources acquired so that the first of them is the last acquired. -/
def acquireAll (l : Ledger ρ) (xs : List ρ) : Ledger ρ := { l with held := xs ++ l.held }

def releaseAll (l : Ledger ρ) (xs : List ρ) : Ledger ρ := xs.foldl release l

variable {l : Ledger ρ} {x : ρ} {xs : List ρ}

@[simp] theorem releaseAll_nil : l.releaseAll [] = l := rfl

theorem releaseAll_cons : l.releaseAll (x :: xs) = (l.release x).releaseAll xs := rfl

@[simp] theorem release_acquire : (l.acquire x).release x = l := by
  have held : x ∈ (l.acquire x).held := List.mem_cons_self
  rw [release, if_pos held]
  simp only [acquire, List.erase_cons_head]

omit [DecidableEq ρ] in
theorem acquireAll_cons : l.acquireAll (x :: xs) = (l.acquireAll xs).acquire x := rfl

@[simp] theorem releaseAll_acquireAll : (l.acquireAll xs).releaseAll xs = l := by
  induction xs with
  | nil => rfl
  | cons x xs ih => rw [acquireAll_cons, releaseAll_cons, release_acquire, ih]

theorem release_of_empty (empty : l.held = []) : l.release x = { l with wrong := l.wrong ++ [x] } :=
  if_neg (by rw [empty]; exact List.not_mem_nil)

/-- Where nothing is held, nothing is released. -/
theorem releaseAll_of_empty (empty : l.held = []) :
    l.releaseAll xs = { l with wrong := l.wrong ++ xs } := by
  induction xs generalizing l with
  | nil => rw [List.append_nil, releaseAll_nil]
  | cons x xs ih =>
      have first := release_of_empty (x := x) empty
      have rest : (l.release x).held = [] := by
        rw [first]
        exact empty
      rw [releaseAll_cons, ih rest, first]
      simp only [List.append_assoc, List.singleton_append]

end Ledger

end Lib
