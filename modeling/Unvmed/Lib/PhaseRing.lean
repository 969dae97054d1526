import Mathlib.Data.List.Nodup
import Mathlib.Data.List.Range
import Mathlib.Data.List.TakeWhile
import Mathlib.Logic.Function.Iterate

/-!
Rings whose entries carry a phase bit.

The writer inverts the bit of the entries it writes each time it wraps. A reader
keeps a position and a phase: the entry at its position is fresh if the entry's bit
differs from the phase. After one turn the reader's phase is inverted, so that the
entries it took are stale; this, and not the position, is why it stops.
-/

namespace Lib

/-- Where a reader of the ring is. -/
structure Cursor where
  head : Nat
  phase : Bool
  deriving DecidableEq, Repr

namespace Cursor

/-- The cursor behind the entry at `c`, in a ring of `n` entries. -/
def next (n : Nat) (c : Cursor) : Cursor :=
  if c.head + 1 = n then ⟨0, !c.phase⟩ else ⟨c.head + 1, c.phase⟩

/-- The entry at the cursor was not taken yet. -/
def Fresh (bit : Nat → Bool) (c : Cursor) : Prop := bit c.head ≠ c.phase

instance (bit : Nat → Bool) : DecidablePred (Fresh bit) :=
  fun c => inferInstanceAs (Decidable (bit c.head ≠ c.phase))

/-- The cursors of one turn. -/
def turn (n : Nat) (c : Cursor) : List Cursor := (List.range n).map fun k => (next n)^[k] c

/-- The slots of the fresh entries, in the order of the ring. -/
def pending (bit : Nat → Bool) (n : Nat) (c : Cursor) : List Nat :=
  ((turn n c).takeWhile fun c => decide (c.Fresh bit)).map head

/-- The cursor behind the fresh entries. -/
def stop (bit : Nat → Bool) (n : Nat) (c : Cursor) : Cursor :=
  (next n)^[(pending bit n c).length] c

/-- A reader that takes entries until it meets a stale one. -/
def walk {σ : Type*} (bit : Nat → Bool) (n : Nat) (visit : σ → Nat → σ) :
    Nat → Cursor → σ → Option (σ × Cursor)
  | 0, _, _ => none
  | fuel + 1, c, s =>
      if c.Fresh bit then walk bit n visit fuel (c.next n) (visit s c.head) else some (s, c)

section Turn

variable {n : Nat} {c : Cursor}

theorem iterate_next_of_lt {k : Nat} (inside : c.head + k < n) :
    (next n)^[k] c = ⟨c.head + k, c.phase⟩ := by
  induction k with
  | zero => rfl
  | succ k ih =>
      rw [Function.iterate_succ_apply', ih (by omega), next, if_neg (by simp only; omega)]
      rfl

theorem iterate_next_of_le {k : Nat} (start : c.head < n) (wrapped : n ≤ c.head + k)
    (one : c.head + k < n + n) : (next n)^[k] c = ⟨c.head + k - n, !c.phase⟩ := by
  obtain ⟨j, rfl⟩ : ∃ j, k = j + (n - c.head) := ⟨k - (n - c.head), by omega⟩
  have last : (next n)^[n - c.head] c = ⟨0, !c.phase⟩ := by
    obtain ⟨m, eq⟩ : ∃ m, n - c.head = m + 1 := ⟨n - c.head - 1, by omega⟩
    rw [eq, Function.iterate_succ_apply', iterate_next_of_lt (by omega), next,
      if_pos (by simp only; omega)]
  rw [Function.iterate_add_apply, last, iterate_next_of_lt (by simp only; omega)]
  congr 1
  simp only
  omega

/-- After one turn the reader is back, with the other phase. -/
theorem iterate_next_turn (start : c.head < n) : (next n)^[n] c = ⟨c.head, !c.phase⟩ := by
  rw [iterate_next_of_le start (by omega) (by omega)]
  congr 1
  omega

theorem iterate_next_head_lt {k : Nat} (start : c.head < n) (within : k < n) :
    ((next n)^[k] c).head < n := by
  by_cases inside : c.head + k < n
  · rw [iterate_next_of_lt inside]
    exact inside
  · rw [iterate_next_of_le start (by omega) (by omega)]
    simp only
    omega

/-- One turn meets each slot once. -/
theorem head_iterate_next_inj {i j : Nat} (start : c.head < n) (hi : i < n) (hj : j < n)
    (same : ((next n)^[i] c).head = ((next n)^[j] c).head) : i = j := by
  by_cases inside : c.head + i < n <;> by_cases inside' : c.head + j < n
  · rw [iterate_next_of_lt inside, iterate_next_of_lt inside'] at same
    simpa using same
  · rw [iterate_next_of_lt inside, iterate_next_of_le start (by omega) (by omega)] at same
    simp only at same
    omega
  · rw [iterate_next_of_le start (by omega) (by omega), iterate_next_of_lt inside'] at same
    simp only at same
    omega
  · rw [iterate_next_of_le start (by omega) (by omega),
      iterate_next_of_le start (by omega) (by omega)] at same
    simp only at same
    omega

end Turn

section Pending

variable {bit : Nat → Bool} {n : Nat} {c : Cursor}

theorem pending_length_le : (pending bit n c).length ≤ n := by
  unfold pending turn
  rw [List.length_map]
  exact (List.takeWhile_prefix _).length_le.trans (by simp)

/-- The pending slots are the slots of the first cursors of the turn. -/
theorem pending_eq_range :
    pending bit n c =
      (List.range (pending bit n c).length).map fun k => ((next n)^[k] c).head := by
  apply List.ext_getElem
  · simp
  · intro k short _
    have within : k < n := lt_of_lt_of_le short pending_length_le
    simp only [pending, List.getElem_map, List.getElem_range]
    rw [(List.takeWhile_prefix _).getElem]
    simp [turn]

theorem fresh_of_lt_pending {k : Nat} (short : k < (pending bit n c).length) :
    ((next n)^[k] c).Fresh bit := by
  have within : k < n := lt_of_lt_of_le short pending_length_le
  unfold pending at short
  rw [List.length_map] at short
  have taken := List.mem_takeWhile_imp (List.getElem_mem short)
  rw [(List.takeWhile_prefix _).getElem] at taken
  simpa [turn] using taken

/-- A list whose `takeWhile` is shorter goes on with an element that fails. -/
theorem takeWhile_stops {α : Type*} {p : α → Bool} {l : List α}
    (short : (l.takeWhile p).length < l.length) : ¬p (l[(l.takeWhile p).length]) = true := by
  have eq : (l.takeWhile p).length = (l.take (l.findIdx fun a => !p a)).length :=
    congrArg List.length List.takeWhile_eq_take_findIdx_not
  rw [List.length_take] at eq
  have found : l.findIdx (fun a => !p a) = (l.takeWhile p).length := by omega
  have fails := List.findIdx_getElem (p := fun a => !p a) (w := found ▸ short)
  simp only [found] at fails
  simpa using fails

/-- The entry behind the pending ones is stale, also when the whole ring was fresh. -/
theorem stop_stale (start : c.head < n) : ¬(stop bit n c).Fresh bit := by
  rcases Nat.lt_or_ge (pending bit n c).length n with short | full
  · have stops := takeWhile_stops (p := fun c : Cursor => decide (c.Fresh bit)) (l := turn n c)
      (by simpa [pending, turn] using short)
    simpa [stop, pending, turn] using stops
  · have whole : (pending bit n c).length = n := le_antisymm pending_length_le full
    have first : ((next n)^[0] c).Fresh bit := fresh_of_lt_pending (by omega)
    unfold stop
    rw [whole, iterate_next_turn start]
    simpa [Fresh] using first

theorem pending_nodup (start : c.head < n) : (pending bit n c).Nodup := by
  have short : (pending bit n c).length ≤ n := pending_length_le
  rw [pending_eq_range]
  apply List.Nodup.map_on
  · intro i hi j hj same
    rw [List.mem_range] at hi hj
    exact head_iterate_next_inj start (by omega) (by omega) same
  · exact List.nodup_range

theorem pending_lt (start : c.head < n) {i : Nat} (mem : i ∈ pending bit n c) : i < n := by
  rw [pending_eq_range, List.mem_map] at mem
  obtain ⟨k, short, rfl⟩ := mem
  exact iterate_next_head_lt start (lt_of_lt_of_le (List.mem_range.mp short) pending_length_le)

/-- The reader takes `k` fresh entries and stops in front of a stale one. -/
theorem walk_of_fresh {σ : Type*} {visit : σ → Nat → σ} {k fuel : Nat} {s : σ}
    (fresh : ∀ i < k, ((next n)^[i] c).Fresh bit) (stale : ¬((next n)^[k] c).Fresh bit)
    (enough : k < fuel) :
    walk bit n visit fuel c s =
      some (((List.range k).map fun i => ((next n)^[i] c).head).foldl visit s,
        (next n)^[k] c) := by
  induction k generalizing fuel c s with
  | zero =>
      obtain ⟨fuel, rfl⟩ : ∃ m, fuel = m + 1 := ⟨fuel - 1, by omega⟩
      exact if_neg stale
  | succ k ih =>
      obtain ⟨fuel, rfl⟩ : ∃ m, fuel = m + 1 := ⟨fuel - 1, by omega⟩
      have first : c.Fresh bit := fresh 0 (by omega)
      have rest : ∀ i < k, ((next n)^[i] (c.next n)).Fresh bit :=
        fun i short => fresh (i + 1) (by omega)
      rw [walk, if_pos first, ih rest stale (by omega), List.range_succ_eq_map, List.map_cons,
        List.map_map, List.foldl_cons]
      rfl

/-- One turn and one look more are enough to reach the end of the fresh entries. -/
theorem walk_eq {σ : Type*} {visit : σ → Nat → σ} {fuel : Nat} {s : σ} (start : c.head < n)
    (enough : n < fuel) :
    walk bit n visit fuel c s = some ((pending bit n c).foldl visit s, stop bit n c) := by
  have short : (pending bit n c).length ≤ n := pending_length_le
  rw [walk_of_fresh (fun i => fresh_of_lt_pending) (stop_stale start) (by omega),
    ← pending_eq_range]
  rfl

end Pending

end Cursor

end Lib
