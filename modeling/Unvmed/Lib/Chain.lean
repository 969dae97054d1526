import Mathlib.Data.List.Basic
import Mathlib.Algebra.Order.Group.Nat

/-!
Lists in pages that are chained.

Each page has room for a number of slots. The last slot of every page but the last is a link to the
next page, so such a page holds one entry less.

* `chain_isSome_iff`: the entries that fit.
* `chain_entries`, `chain_length`: the pages hold the entries in their order, and no more than fit.
-/

namespace Lib

/-- A slot of a page. -/
inductive Slot (α : Type*) where
  | entry (a : α)
  /-- The next page. -/
  | link
  deriving DecidableEq, Repr

namespace Slot

variable {α : Type*}

def toEntry : Slot α → Option α
  | .entry a => some a
  | .link => none

end Slot

section Chain

variable {α : Type*} {room n : ℕ} {es : List α} {pages : List (List (Slot α))}

/-- The entries `es` in at most `n` pages of `room` slots, if they fit. -/
def chain (room : ℕ) : ℕ → List α → Option (List (List (Slot α)))
  | 0, _ => none
  | n + 1, es =>
      if es.length ≤ room then some [es.map .entry]
      else (chain room n (es.drop (room - 1))).map
        (((es.take (room - 1)).map .entry ++ [.link]) :: ·)

/-- Every page but the last gives up one slot. -/
theorem chain_isSome_iff (two : 2 ≤ room) :
    (chain room n es).isSome ↔ 0 < n ∧ es.length ≤ n * (room - 1) + 1 := by
  induction n generalizing es with
  | zero => simp [chain]
  | succ n ih =>
      rw [chain, Nat.succ_mul]
      split
      · rename_i short
        refine iff_of_true rfl ⟨n.succ_pos, ?_⟩
        omega
      · rename_i long
        rw [Option.isSome_map, ih, List.length_drop]
        constructor
        · rintro ⟨-, fits⟩
          exact ⟨n.succ_pos, by omega⟩
        · rintro ⟨-, fits⟩
          refine ⟨Nat.pos_of_ne_zero ?_, by omega⟩
          rintro rfl
          omega

/-- The pages hold the entries in their order. -/
theorem chain_entries (h : chain room n es = some pages) :
    pages.flatten.filterMap Slot.toEntry = es := by
  have entries (l : List α) : (l.map Slot.entry).filterMap Slot.toEntry = l := by
    rw [List.filterMap_map]
    exact List.filterMap_some
  induction n generalizing es pages with
  | zero => cases h
  | succ n ih =>
      rw [chain] at h
      split at h
      · cases h
        simpa using entries es
      · obtain ⟨rest, later, rfl⟩ := Option.map_eq_some_iff.mp h
        have last : [Slot.link (α := α)].filterMap Slot.toEntry = [] := rfl
        rw [List.flatten_cons, List.filterMap_append, List.filterMap_append, entries, last,
          ih later, List.append_nil, List.take_append_drop]

/-- No page and no list of pages is longer than it may be. -/
theorem chain_length (pos : 0 < room) (h : chain room n es = some pages) :
    pages.length ≤ n ∧ ∀ page ∈ pages, page.length ≤ room := by
  induction n generalizing es pages with
  | zero => cases h
  | succ n ih =>
      rw [chain] at h
      split at h
      · rename_i short
        cases h
        simpa using short
      · obtain ⟨rest, later, rfl⟩ := Option.map_eq_some_iff.mp h
        obtain ⟨count, inside⟩ := ih later
        constructor
        · simpa using count
        · intro page mem
          rcases List.mem_cons.mp mem with rfl | mem
          · rw [List.length_append, List.length_map, List.length_take]
            simp only [List.length_singleton]
            omega
          · exact inside page mem

end Chain

end Lib
