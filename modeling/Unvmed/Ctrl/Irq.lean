import Mathlib
import Unvmed.Lib.Tally

/-!
Interrupt vectors and their reaper threads (`lib/libunvmed.c`).

A vector is shared by the CQs that use it and counts them. The first one sets the vector's
reaper up and starts its thread; the last one joins the thread and clears the reaper. `α` is
the type of the CQs on a reaper's list. Two ghost counters say how many threads were started
and joined so far.
-/

namespace Unvmed.Irq

open Lib

variable {α : Type}

/-- `struct unvme_cq_reaper`. -/
structure Reaper (α : Type) where
  refcnt : Nat := 0
  /-- `unvmed_init_irq_reaper` has set up its file descriptors. -/
  ready : Bool := false
  running : Bool := false
  /-- `cq_list` -/
  cqList : List α := []
  deriving DecidableEq, Repr

/-- The vectors of a controller: `u->reapers`, with `u->nr_efds` entries. -/
structure Irqs (α : Type) where
  nr : Nat
  reapers : Nat → Reaper α
  /-- Threads started by `pthread_create`. -/
  started : Nat
  /-- Threads joined. -/
  joined : Nat

/-- What `unvmed_init_irq` meets. -/
inductive InitOutcome where
  | ok
  /-- `unvmed_init_irq_reaper` gets no file descriptor. -/
  | reaper
  /-- `vfio_disable_irq`, `vfio_set_irq` or `pthread_create` fails. -/
  | thread
  deriving DecidableEq, Repr

def Irqs.set (q : Irqs α) (vector : Nat) (r : Reaper α) : Irqs α :=
  { q with reapers := Function.update q.reapers vector r }

/-- `unvmed_init_irq`: whether it succeeds, and the vectors. The count is taken first; it
stays when the reaper cannot be set up, and is cleared with the reaper when a later
step fails. -/
def Irqs.initIrq (q : Irqs α) (vector : Nat) (o : InitOutcome) : Bool × Irqs α :=
  let r := q.reapers vector
  if q.nr ≤ vector then (false, q)
  else if 0 < r.refcnt then (true, q.set vector { r with refcnt := r.refcnt + 1 })
  else match o with
    | .reaper => (false, q.set vector { refcnt := 1 })
    | .thread => (false, q.set vector {})
    | .ok => (true, { q.set vector { refcnt := 1, ready := true, running := true } with
        started := q.started + 1 })

/-- `unvmed_reaper_join`. -/
def Irqs.reaperJoin (q : Irqs α) (vector : Nat) : Irqs α :=
  let r := q.reapers vector
  if r.running then { q.set vector { r with running := false } with joined := q.joined + 1 } else q

/-- `unvmed_free_irq`; `vfio` says whether `vfio_disable_irq` succeeds. -/
def Irqs.freeIrq (q : Irqs α) (vector : Nat) (vfio : Bool) : Irqs α :=
  let r := q.reapers vector
  if r.refcnt = 0 then q
  else if 0 < r.refcnt - 1 then q.set vector { r with refcnt := r.refcnt - 1 }
  else
    let q := (q.set vector { r with refcnt := 0 }).reaperJoin vector
    if vfio then q.set vector {} else q

/-- `unvmed_reaper_add_cq`: a CQ goes to the end of its vector's list. `allocated` says whether
the list entry is allocated. -/
def Irqs.reaperAddCq (q : Irqs α) (ucq : α) (vector : Int) (allocated : Bool) : Option (Irqs α) :=
  let r := q.reapers vector.toNat
  if vector < 0 ∨ q.nr ≤ vector.toNat then some q
  else if r.refcnt = 0 then some q
  else if allocated then some (q.set vector.toNat { r with cqList := r.cqList ++ [ucq] })
  else none

/-- `unvmed_reaper_del_cq`. -/
def Irqs.reaperDelCq [DecidableEq α] (q : Irqs α) (ucq : α) (vector : Int) : Irqs α :=
  let r := q.reapers vector.toNat
  if vector < 0 ∨ q.nr ≤ vector.toNat then q
  else q.set vector.toNat { r with cqList := r.cqList.erase ucq }

/-- One round of `unvmed_free_irq_all`. -/
def Irqs.freeIrqLast (q : Irqs α) (vfio : Nat → Bool) (vector : Nat) : Irqs α :=
  let r := q.reapers vector
  (q.set vector { r with refcnt := min r.refcnt 1 }).freeIrq vector (vfio vector)

/-- `unvmed_free_irq_all`. -/
def Irqs.freeIrqAll (q : Irqs α) (vfio : Nat → Bool) : Irqs α :=
  (List.range q.nr).foldl (fun q vector => q.freeIrqLast vfio vector) q

/-- `unvmed_free_irqs`. -/
def Irqs.freeIrqs (q : Irqs α) (vfio : Nat → Bool) : Irqs α := { q.freeIrqAll vfio with nr := 0 }

/-- The end of `unvmed_alloc_irqs`. -/
def Irqs.allocIrqs (q : Irqs α) (nr : Nat) : Irqs α := { q with nr := nr, reapers := fun _ => {} }

/-! ### Fields -/

section Fields

variable (q : Irqs α) (vector : Nat)

@[simp] theorem Irqs.set_self (r : Reaper α) : (q.set vector r).reapers vector = r :=
  Function.update_self ..

theorem Irqs.set_other {v : Nat} (other : v ≠ vector) (r : Reaper α) :
    (q.set vector r).reapers v = q.reapers v :=
  Function.update_of_ne other _ _

@[simp] theorem Irqs.set_nr (r : Reaper α) : (q.set vector r).nr = q.nr := rfl

/-- What a call does to the vector it is about. -/
theorem Irqs.freeIrq_self (vfio : Bool) : ((q.freeIrq vector vfio).reapers vector).refcnt =
      (q.reapers vector).refcnt - 1 ∧ (2 ≤ (q.reapers vector).refcnt →
      (q.freeIrq vector vfio).reapers vector =
        { q.reapers vector with refcnt := (q.reapers vector).refcnt - 1 }) ∧
      ((q.reapers vector).refcnt = 1 → vfio = true →
        (q.freeIrq vector vfio).reapers vector = {}) := by
  unfold Irqs.freeIrq Irqs.reaperJoin
  simp only [Irqs.set_self]
  split
  · rename_i none
    simp [none]
  · split
    · rename_i more
      refine ⟨by simp, fun _ => by simp, ?_⟩
      intro one
      omega
    · rename_i last
      refine ⟨?_, fun two => absurd two (by omega), ?_⟩
      · split <;> split <;> simp <;> omega
      · rintro - rfl
        simp

theorem Irqs.freeIrq_other {v : Nat} (other : v ≠ vector) (vfio : Bool) :
    (q.freeIrq vector vfio).reapers v = q.reapers v := by
  unfold Irqs.freeIrq Irqs.reaperJoin
  simp only [Irqs.set_self]
  split
  · rfl
  · split
    · exact q.set_other vector other _
    · split <;> split <;> simp [Irqs.set, other]

theorem Irqs.freeIrq_nr (vfio : Bool) : (q.freeIrq vector vfio).nr = q.nr := by
  unfold Irqs.freeIrq Irqs.reaperJoin
  simp only
  split
  · rfl
  · split
    · rfl
    · split <;> split <;> rfl

/-- The list goes only with the reaper, when the last user leaves. -/
theorem Irqs.freeIrq_cqList (vfio : Bool) :
    ((q.freeIrq vector vfio).reapers vector).cqList = (q.reapers vector).cqList ∨
      ((q.freeIrq vector vfio).reapers vector).cqList = [] ∧ (q.reapers vector).refcnt ≤ 1 := by
  unfold Irqs.freeIrq Irqs.reaperJoin
  simp only [Irqs.set_self]
  split
  · exact .inl rfl
  · split
    · exact .inl (by simp)
    · rename_i last
      by_cases cleared : vfio = true
      · rw [if_pos cleared]
        exact .inr ⟨by simp, by omega⟩
      · rw [if_neg cleared]
        exact .inl (by split <;> simp)

theorem Irqs.reaperAddCq_taken (ucq : α) {vector : Int}
    (bounds : ¬ (vector < 0 ∨ q.nr ≤ vector.toNat))
    (taken : (q.reapers vector.toNat).refcnt ≠ 0) (allocated : Bool) :
    q.reaperAddCq ucq vector allocated = if allocated then
      some (q.set vector.toNat { q.reapers vector.toNat with
        cqList := (q.reapers vector.toNat).cqList ++ [ucq] }) else none := by
  unfold Irqs.reaperAddCq
  simp only
  rw [if_neg bounds, if_neg taken]

/-- Only the list of the vector changes. -/
theorem Irqs.reaperAddCq_fields {q q' : Irqs α} {ucq : α} {vector : Int} {allocated : Bool}
    (added : q.reaperAddCq ucq vector allocated = some q') : q'.nr = q.nr ∧ ∀ v,
      (q'.reapers v).refcnt = (q.reapers v).refcnt ∧ (q'.reapers v).ready = (q.reapers v).ready ∧
        (q'.reapers v).running = (q.reapers v).running := by
  unfold Irqs.reaperAddCq at added
  simp only at added
  split at added
  · cases added
    exact ⟨rfl, fun _ => ⟨rfl, rfl, rfl⟩⟩
  · split at added
    · cases added
      exact ⟨rfl, fun _ => ⟨rfl, rfl, rfl⟩⟩
    · split at added
      · cases added
        refine ⟨rfl, fun v => ?_⟩
        by_cases same : v = vector.toNat
        · subst same
          rw [Irqs.set_self]
          exact ⟨rfl, rfl, rfl⟩
        · rw [q.set_other _ same]
          exact ⟨rfl, rfl, rfl⟩
      · cases added

section Del

variable [DecidableEq α] (ucq : α)

theorem Irqs.reaperDelCq_self {vector : Int} (bounds : ¬ (vector < 0 ∨ q.nr ≤ vector.toNat)) :
    (q.reaperDelCq ucq vector).reapers vector.toNat = { q.reapers vector.toNat with
      cqList := (q.reapers vector.toNat).cqList.erase ucq } := by
  unfold Irqs.reaperDelCq
  simp only
  rw [if_neg bounds, Irqs.set_self]

theorem Irqs.reaperDelCq_other {v : Nat} {vector : Int} (other : v ≠ vector.toNat) :
    (q.reaperDelCq ucq vector).reapers v = q.reapers v := by
  unfold Irqs.reaperDelCq
  split
  · rfl
  · exact q.set_other _ other _

theorem Irqs.reaperDelCq_masked {vector : Int} (masked : vector < 0) :
    q.reaperDelCq ucq vector = q :=
  if_pos (.inl masked)

theorem Irqs.reaperDelCq_nr (vector : Int) : (q.reaperDelCq ucq vector).nr = q.nr := by
  unfold Irqs.reaperDelCq
  split <;> rfl

/-- Only the list of the vector changes. -/
theorem Irqs.reaperDelCq_fields (vector : Int) (v : Nat) :
    ((q.reaperDelCq ucq vector).reapers v).refcnt = (q.reapers v).refcnt ∧
      ((q.reaperDelCq ucq vector).reapers v).ready = (q.reapers v).ready ∧
      ((q.reaperDelCq ucq vector).reapers v).running = (q.reapers v).running := by
  unfold Irqs.reaperDelCq
  split
  · exact ⟨rfl, rfl, rfl⟩
  · by_cases same : v = vector.toNat
    · subst same
      rw [Irqs.set_self]
      exact ⟨rfl, rfl, rfl⟩
    · rw [q.set_other _ same]
      exact ⟨rfl, rfl, rfl⟩

end Del

theorem Irqs.initIrq_other {v : Nat} (other : v ≠ vector) (o : InitOutcome) :
    (q.initIrq vector o).2.reapers v = q.reapers v := by
  unfold Irqs.initIrq
  simp only
  split
  · rfl
  · split
    · exact q.set_other vector other _
    · cases o <;> exact q.set_other vector other _

/-- What `unvmed_init_irq` does to the vector it is about. -/
theorem Irqs.initIrq_self (o : InitOutcome) :
    ((q.initIrq vector o).1 = true →
      ((q.initIrq vector o).2.reapers vector).refcnt = (q.reapers vector).refcnt + 1) ∧
    (((q.initIrq vector o).2.reapers vector).cqList = (q.reapers vector).cqList ∨
      ((q.initIrq vector o).2.reapers vector).cqList = [] ∧ (q.reapers vector).refcnt = 0) ∧
    (q.reapers vector).refcnt ≤ ((q.initIrq vector o).2.reapers vector).refcnt := by
  unfold Irqs.initIrq
  simp only
  split
  · exact ⟨nofun, .inl rfl, le_rfl⟩
  · split
    · simp
    · rename_i unused
      cases o with
      | ok =>
          refine ⟨fun _ => ?_, .inr ⟨by simp [Irqs.set], by omega⟩, by omega⟩
          simp only [Irqs.set, Function.update_self]
          omega
      | reaper => exact ⟨nofun, .inr ⟨by simp, by omega⟩, by omega⟩
      | thread => exact ⟨nofun, .inr ⟨by simp, by omega⟩, by omega⟩

/-- A vector that is taken has its reaper and the reaper's thread. -/
theorem Irqs.initIrq_ready {o : InitOutcome} (taken : (q.initIrq vector o).1 = true)
    (used : 0 < (q.reapers vector).refcnt →
      (q.reapers vector).ready = true ∧ (q.reapers vector).running = true) :
    ((q.initIrq vector o).2.reapers vector).ready = true ∧
      ((q.initIrq vector o).2.reapers vector).running = true := by
  unfold Irqs.initIrq at taken ⊢
  simp only at taken ⊢
  split at taken
  · cases taken
  · rename_i known
    rw [if_neg known]
    split at taken
    · rename_i shared
      rw [if_pos shared, Irqs.set_self]
      exact used shared
    · rename_i unused
      rw [if_neg unused]
      cases o with
      | ok => simp [Irqs.set]
      | reaper => cases taken
      | thread => cases taken

/-- Unless its reaper cannot be set up, a vector that is not taken counts what it did. -/
theorem Irqs.initIrq_failed {o : InitOutcome} (failed : (q.initIrq vector o).1 = false)
    (reaper : q.nr ≤ vector ∨ 0 < (q.reapers vector).refcnt ∨ o ≠ .reaper) :
    ((q.initIrq vector o).2.reapers vector).refcnt = (q.reapers vector).refcnt ∧
      (0 < (q.reapers vector).refcnt →
        (q.initIrq vector o).2.reapers vector = q.reapers vector) := by
  unfold Irqs.initIrq at failed ⊢
  simp only at failed ⊢
  split at failed
  · rename_i outside
    rw [if_pos outside]
    exact ⟨rfl, fun _ => rfl⟩
  · rename_i known
    rw [if_neg known]
    split at failed
    · cases failed
    · rename_i unused
      rw [if_neg unused]
      refine ⟨?_, fun used => absurd used unused⟩
      cases o with
      | ok => cases failed
      | reaper => exact (reaper.elim known fun rest => rest.elim unused fun ne => ne rfl).elim
      | thread =>
          rw [Irqs.set_self]
          change 0 = _
          omega

theorem Irqs.initIrq_nr (o : InitOutcome) : (q.initIrq vector o).2.nr = q.nr := by
  unfold Irqs.initIrq
  simp only
  split
  · rfl
  · split
    · rfl
    · cases o <;> rfl

end Fields

/-! ### Threads -/

/-- One for a reaper whose thread runs. -/
def Reaper.thread (r : Reaper α) : Nat := if r.running then 1 else 0

/-- The reaper's thread runs only while the vector is used. -/
structure Irqs.Sound (q : Irqs α) : Prop where
  used : ∀ v, (q.reapers v).refcnt = 0 → (q.reapers v).running = false
  threads : q.started = q.joined + tallyTo q.nr Reaper.thread q.reapers

theorem Irqs.allocIrqs_sound {q : Irqs α} (all : q.started = q.joined) (nr : Nat) :
    (q.allocIrqs nr).Sound := by
  refine ⟨fun _ _ => rfl, ?_⟩
  have none : tallyTo nr Reaper.thread (fun _ => ({} : Reaper α)) = 0 :=
    tallyTo_eq_zero fun _ => rfl
  change q.started = q.joined + tallyTo nr Reaper.thread fun _ => ({} : Reaper α)
  omega

/-- A vector changes together with the counters. -/
theorem Irqs.Sound.set {q q' : Irqs α} (h : q.Sound) {vector : Nat} {r : Reaper α}
    (inside : vector < q.nr) (nr : q'.nr = q.nr)
    (reapers : q'.reapers = Function.update q.reapers vector r)
    (used : r.refcnt = 0 → r.running = false)
    (counted : q'.started + q.joined + (q.reapers vector).thread =
      q.started + q'.joined + r.thread) : q'.Sound := by
  constructor
  · intro v unused
    rw [reapers] at unused ⊢
    by_cases same : v = vector
    · subst same
      rw [Function.update_self] at unused ⊢
      exact used unused
    · rw [Function.update_of_ne same] at unused ⊢
      exact h.used v unused
  · have moved := tallyTo_update inside Reaper.thread q.reapers r
    have before := h.threads
    rw [nr, reapers]
    omega

theorem Irqs.Sound.initIrq {q : Irqs α} (h : q.Sound) (vector : Nat) (o : InitOutcome) :
    (q.initIrq vector o).2.Sound := by
  unfold Irqs.initIrq
  simp only
  split
  · exact h
  · rename_i inside
    split
    · refine h.set (not_le.mp inside) rfl rfl (fun none => (by cases none)) ?_
      rfl
    · rename_i unused
      have idle : (q.reapers vector).thread = 0 := by
        rw [Reaper.thread, h.used vector (by omega)]
        rfl
      cases o with
      | ok =>
          refine h.set (not_le.mp inside) rfl rfl (fun none => (by cases none)) ?_
          rw [idle]
          change q.started + 1 + q.joined + 0 = q.started + q.joined + 1
          omega
      | reaper => exact h.set (not_le.mp inside) rfl rfl (fun _ => rfl) (by rw [idle]; rfl)
      | thread => exact h.set (not_le.mp inside) rfl rfl (fun _ => rfl) (by rw [idle]; rfl)

theorem Irqs.Sound.freeIrq {q : Irqs α} (h : q.Sound) {vector : Nat} (inside : vector < q.nr)
    (vfio : Bool) : (q.freeIrq vector vfio).Sound := by
  unfold Irqs.freeIrq Irqs.reaperJoin
  simp only [Irqs.set_self]
  split
  · exact h
  · split
    · rename_i more
      exact h.set inside rfl rfl (fun none => absurd none (by change _ - 1 ≠ 0; omega)) rfl
    · cases running : (q.reapers vector).running with
      | true =>
          have one : (q.reapers vector).thread = 1 := by rw [Reaper.thread, running]; rfl
          simp only [if_true]
          split
          · refine h.set (r := {}) inside rfl ?_ (fun _ => rfl) ?_
            · simp [Irqs.set]
            · rw [one]
              change q.started + q.joined + 1 = q.started + (q.joined + 1) + 0
              omega
          · refine h.set (r := { q.reapers vector with refcnt := 0, running := false }) inside rfl
              ?_ (fun _ => rfl) ?_
            · simp [Irqs.set]
            · rw [one]
              change q.started + q.joined + 1 = q.started + (q.joined + 1) + 0
              omega
      | false =>
          have none : (q.reapers vector).thread = 0 := by rw [Reaper.thread, running]; rfl
          simp only [Bool.false_eq_true, if_false]
          split
          · refine h.set (r := {}) inside rfl ?_ (fun _ => rfl) ?_
            · simp [Irqs.set]
            · rw [none]
              rfl
          · refine h.set (r := { q.reapers vector with refcnt := 0, running := false }) inside rfl
              ?_ (fun _ => rfl) ?_
            · simp [Irqs.set]
            · rw [none]
              rfl

theorem Irqs.Sound.freeIrqLast {q : Irqs α} (h : q.Sound) {vector : Nat} (inside : vector < q.nr)
    (vfio : Nat → Bool) : (q.freeIrqLast vfio vector).Sound := by
  have capped : (q.set vector { q.reapers vector with
      refcnt := min (q.reapers vector).refcnt 1 }).Sound := by
    refine h.set inside rfl rfl ?_ rfl
    intro unused
    apply h.used
    change min _ 1 = 0 at unused
    omega
  exact capped.freeIrq inside _

theorem Irqs.freeIrqLast_self (q : Irqs α) (vfio : Nat → Bool) (vector : Nat) :
    ((q.freeIrqLast vfio vector).reapers vector).refcnt = 0 := by
  rw [Irqs.freeIrqLast, (Irqs.freeIrq_self ..).1, Irqs.set_self]
  change min _ 1 - 1 = 0
  omega

theorem Irqs.freeIrqLast_other (q : Irqs α) (vfio : Nat → Bool) {vector v : Nat}
    (other : v ≠ vector) : (q.freeIrqLast vfio vector).reapers v = q.reapers v := by
  rw [Irqs.freeIrqLast, Irqs.freeIrq_other _ _ other, Irqs.set_other _ _ other]

theorem Irqs.freeIrqLast_nr (q : Irqs α) (vfio : Nat → Bool) (vector : Nat) :
    (q.freeIrqLast vfio vector).nr = q.nr := by
  rw [Irqs.freeIrqLast, Irqs.freeIrq_nr]
  rfl

/-- **The loop of `unvmed_free_irq_all`.** Whatever a round keeps, the loop keeps, and every
vector it has passed is in the state its round left. -/
theorem Irqs.freeIrqAll_rule {P : Irqs α → Prop} {Q : Reaper α → Prop} {vfio : Nat → Bool}
    (keep : ∀ (q : Irqs α) vector, P q → vector < q.nr → P (q.freeIrqLast vfio vector))
    (passed : ∀ (q : Irqs α) vector, Q ((q.freeIrqLast vfio vector).reapers vector))
    {q : Irqs α} (h : P q) :
    P (q.freeIrqAll vfio) ∧ (q.freeIrqAll vfio).nr = q.nr ∧
      ∀ v < q.nr, Q ((q.freeIrqAll vfio).reapers v) := by
  have loop (n : Nat) (le : n ≤ q.nr) :
      let q' := (List.range n).foldl (fun q vector => q.freeIrqLast vfio vector) q
      P q' ∧ q'.nr = q.nr ∧ ∀ v < n, Q (q'.reapers v) := by
    induction n with
    | zero => exact ⟨h, rfl, fun v none => absurd none (Nat.not_lt_zero v)⟩
    | succ n ih =>
        obtain ⟨kept, nr, done⟩ := ih (by omega)
        simp only [List.range_succ, List.foldl_append, List.foldl_cons, List.foldl_nil]
        refine ⟨keep _ n kept (by omega), (Irqs.freeIrqLast_nr ..).trans nr, ?_⟩
        intro v lt
        by_cases same : v = n
        · rw [same]
          exact passed _ n
        · rw [Irqs.freeIrqLast_other _ _ same]
          exact done v (by omega)
  exact loop q.nr le_rfl

/-- With no vectors left, all threads were joined. -/
theorem Irqs.Sound.joined {q : Irqs α} (h : q.Sound) (none : q.nr = 0) : q.joined = q.started := by
  have threads := h.threads
  rw [none] at threads
  have empty : tallyTo 0 Reaper.thread q.reapers = 0 := rfl
  omega

/-- All threads are joined. -/
theorem Irqs.Sound.freeIrqAll {q : Irqs α} (h : q.Sound) (vfio : Nat → Bool) :
    (q.freeIrqAll vfio).Sound ∧ (q.freeIrqAll vfio).started = (q.freeIrqAll vfio).joined := by
  obtain ⟨sound, nr, unused⟩ := Irqs.freeIrqAll_rule (P := Irqs.Sound)
    (Q := fun r => r.refcnt = 0) (fun q v sound inside => sound.freeIrqLast inside vfio)
    (fun q v => q.freeIrqLast_self vfio v) h
  refine ⟨sound, ?_⟩
  have none : tallyTo (q.freeIrqAll vfio).nr Reaper.thread (q.freeIrqAll vfio).reapers = 0 := by
    refine tally_eq_zero fun v => ?_
    rw [Reaper.thread, sound.used v (unused v (nr ▸ v.isLt))]
    rfl
  have threads := sound.threads
  omega

theorem Irqs.freeIrqAll_nr (q : Irqs α) (vfio : Nat → Bool) : (q.freeIrqAll vfio).nr = q.nr :=
  (Irqs.freeIrqAll_rule (P := fun _ => True) (Q := fun _ => True) (fun _ _ _ _ => trivial)
    (fun _ _ => trivial) trivial).2.1

theorem Irqs.Sound.freeIrqs {q : Irqs α} (h : q.Sound) (vfio : Nat → Bool) :
    (q.freeIrqs vfio).started = (q.freeIrqs vfio).joined := (h.freeIrqAll vfio).2

end Unvmed.Irq
