import Unvmed.Lib.Run
import Unvmed.Lib.Tally
import Unvmed.Basic

/-!
The queue registry (`u->sqs`, `u->cqs` in `lib/libunvmed.c`): reference counts,
publication and freeing of queue instances.

The SQ and CQ functions are twins, so one machine runs both: `Kind` selects the
array and its rwlock. A read section stays open over the load and the
compare-and-swap loop of `__unvmed_find_and_get_sq`; a write section is one step,
enabled while no thread is in a read section of its kind. The decrement of
`unvmed_sq_put` takes no lock.

* `free_unpublishes_newer`: between the decrement to 0 and the write section of
  `__unvmed_free_usq`, `unvmed_init_usq` may publish a newer instance of the same
  qid, and the write section then clears the newer one.
* `registry_lifetime`: in every run where an instance is published into an empty
  slot (`SlotEmpty`), every referenced instance is reachable through its slot.
  That a get returns live instances only, and that each is freed exactly once,
  holds in every run (`State.Counted`).
-/

namespace Unvmed.Registry

open Lib

/-- The two arrays of `struct unvme`. -/
inductive Kind where
  | sq
  | cq
  deriving DecidableEq, Repr

/-- A slot: `u->sqs[qid]` or `u->cqs[qid]`. -/
structure Key where
  kind : Kind
  qid : Nat
  deriving DecidableEq, Repr

/-- A queue instance. Its `id` is written once, before it is published; the serial
number tells two instances of one id apart. -/
structure Inst where
  key : Key
  serial : Nat
  deriving DecidableEq, Repr

/-- Where a thread is. `create` says that the get is the one of `unvmed_init_usq`. -/
inductive Pc where
  | idle
  /-- In the read section; next is `atomic_load_acquire(&usq->refcnt)`. -/
  | load (key : Key) (create : Bool) (x : Inst)
  /-- In the read section; next is `atomic_cmpxchg(&usq->refcnt, refcnt, refcnt + 1)`. -/
  | cas (key : Key) (create : Bool) (x : Inst) (refcnt : Nat)
  /-- In the read section; next is the unlock and the return of the result. -/
  | unlock (key : Key) (create : Bool) (found : Option Inst)
  /-- In `unvmed_init_usq`, which found no instance; next is `calloc`. -/
  | alloc (key : Key)
  /-- The new instance is initialised; next is the write section. -/
  | publish (x : Inst)
  /-- In `unvmed_sq_put`; next is `atomic_dec_fetch(&usq->refcnt)`. -/
  | dec (x : Inst)
  /-- In `__unvmed_free_usq`; next is the write section. -/
  | unpublish (x : Inst)
  /-- The slot is cleared; next is `free(usq)`. -/
  | free (x : Inst)
  deriving DecidableEq, Repr

/-- The thread is in a read section of this kind. -/
def Pc.reading (kind : Kind) : Pc → Bool
  | .load key _ _ | .cas key _ _ _ | .unlock key _ _ => key.kind = kind
  | _ => false

/-- The arrays, the instances and the threads. `holders` lists the references given
out and not yet put, the creation reference among them. -/
structure State (ι : Type) where
  slot : Key → Option Inst
  refcnt : Inst → Nat
  enabled : Inst → Bool
  /-- How many instances were allocated for the slot so far. -/
  next : Key → Nat
  holders : List Inst
  freed : List Inst
  pcs : ι → Pc

/-- A thread calls a function, an allocation fails, or a thread takes its next step. -/
inductive Act (ι : Type) where
  /-- `unvmed_sq_get`, or `unvmed_init_usq` with `create`. -/
  | get (t : ι) (key : Key) (create : Bool)
  | put (t : ι) (x : Inst)
  /-- `unvmed_enable_sq` and `unvmed_disable_sq`. -/
  | setEnabled (x : Inst) (enabled : Bool)
  | fail (t : ι)
  | step (t : ι)
  deriving Repr

def State.noReader {ι : Type} [Fintype ι] (s : State ι) (kind : Kind) : Prop :=
  ∀ t, (s.pcs t).reading kind = false

instance {ι : Type} [Fintype ι] (s : State ι) (kind : Kind) : Decidable (s.noReader kind) :=
  inferInstanceAs (Decidable (∀ t, (s.pcs t).reading kind = false))

section Step

variable {ι : Type} [DecidableEq ι]

def State.goto (s : State ι) (t : ι) (pc : Pc) : State ι :=
  { s with pcs := Function.update s.pcs t pc }

def State.setRefcnt (s : State ι) (x : Inst) (n : Nat) : State ι :=
  { s with refcnt := Function.update s.refcnt x n }

def State.setSlot (s : State ι) (key : Key) (v : Option Inst) : State ι :=
  { s with slot := Function.update s.slot key v }

/-- A reference is handed to the caller. -/
def State.hand (s : State ι) (x : Inst) : State ι := { s with holders := x :: s.holders }

/-- `free(usq)`. -/
def State.release (s : State ι) (x : Inst) : State ι := { s with freed := x :: s.freed }

/-- The instance a `calloc` of `unvmed_init_usq` returns. -/
def State.fresh (s : State ι) (key : Key) : Inst := ⟨key, s.next key⟩

def State.alloc (s : State ι) (key : Key) : State ι :=
  { s with next := Function.update s.next key (s.next key + 1) }

variable [Fintype ι]

/-- The next step of a thread inside a function. -/
def State.advance (s : State ι) (t : ι) : Pc → Option (State ι)
  | .idle => none
  | .load key create x =>
      -- `Other context has already fred the @usq instance.`
      if s.refcnt x = 0 then some (s.goto t (.unlock key create none))
      else some (s.goto t (.cas key create x (s.refcnt x)))
  | .cas key create x refcnt =>
      if s.refcnt x = refcnt then
        some ((s.setRefcnt x (refcnt + 1)).goto t (.unlock key create (some x)))
      else some (s.goto t (.load key create x))
  | .unlock _ false none => some (s.goto t .idle)
  | .unlock key true none => some (s.goto t (.alloc key))
  | .unlock _ create (some x) =>
      -- `usq is already enabled`: the reference just taken is put back.
      if create ∧ s.enabled x then some (s.goto t (.dec x)) else some ((s.hand x).goto t .idle)
  | .alloc key => some ((s.alloc key).goto t (.publish (s.fresh key)))
  | .publish x =>
      if s.noReader x.key.kind then
        some ((((s.setSlot x.key (some x)).setRefcnt x 1).hand x).goto t .idle)
      else none
  | .dec x =>
      some ((s.setRefcnt x (s.refcnt x - 1)).goto t (if s.refcnt x = 1 then .unpublish x else .idle))
  | .unpublish x =>
      if s.noReader x.key.kind then some ((s.setSlot x.key none).goto t (.free x)) else none
  | .free x => some ((s.release x).goto t .idle)

/-- One atomic step; `nr` is `u->nr_sqs` and `u->nr_cqs`. Queues are created for ids
libvfn has configured only, which are below `nr`. -/
def step (nr : Kind → Nat) (s : State ι) : Act ι → Option (State ι)
  | .get t key create =>
      if s.pcs t ≠ .idle then none
      else if nr key.kind ≤ key.qid then if create then none else some s
      else match s.slot key with
        | none => some (s.goto t (.unlock key create none))
        | some x => some (s.goto t (.load key create x))
  | .put t x =>
      if s.pcs t = .idle ∧ x ∈ s.holders then
        some ({ s with holders := s.holders.erase x }.goto t (.dec x))
      else none
  | .setEnabled x enabled =>
      if x ∈ s.holders then some { s with enabled := Function.update s.enabled x enabled } else none
  | .fail t => match s.pcs t with
      | .alloc _ => some (s.goto t .idle)
      -- `unvmed_cid_init` or `unvmed_timer_init` fails; `unvmed_init_ucq` has no such path.
      | .publish x => if x.key.kind = .sq then some ((s.release x).goto t .idle) else none
      | _ => none
  | .step t => s.advance t (s.pcs t)

def start (ι : Type) : State ι where
  slot _ := none
  refcnt _ := 0
  enabled _ := false
  next _ := 0
  holders := []
  freed := []
  pcs _ := .idle

/-- An instance is published into an empty slot. -/
def SlotEmpty (s : State ι) : Act ι → Prop
  | .step t => match s.pcs t with
      | .publish x => s.slot x.key = none
      | _ => True
  | _ => True

instance (s : State ι) (a : Act ι) : Decidable (SlotEmpty s a) := by
  unfold SlotEmpty
  split
  · split <;> infer_instance
  · infer_instance

end Step

/-! ### What the registry is for -/

/-- 1 for a thread that holds a reference to `x` inside a function. -/
def Pc.holds (x : Inst) : Pc → Nat
  | .unlock _ _ (some y) | .dec y => if y = x then 1 else 0
  | _ => 0

/-- 1 for a thread that is about to publish `x` or to free it. -/
def Pc.pending (x : Inst) : Pc → Nat
  | .publish y | .unpublish y | .free y => if y = x then 1 else 0
  | _ => 0

/-- 1 for a thread that dropped the last reference to `x` and has not cleared its
slot yet. -/
def Pc.unpublishing (x : Inst) : Pc → Nat
  | .unpublish y => if y = x then 1 else 0
  | _ => 0

/-- 1 for an instance that was allocated. -/
def Inst.born (next : Key → Nat) (x : Inst) : Nat := if x.serial < next x.key then 1 else 0

/-- The instance a thread reads inside a read section, and the slot it came from. -/
def Pc.reads : Pc → Option (Key × Inst)
  | .load key _ x | .cas key _ x _ => some (key, x)
  | _ => none

section Spec

variable {ι : Type} [Fintype ι]

/-- The references to `x` that someone still has to put. -/
def State.refs (s : State ι) (x : Inst) : Nat := s.holders.count x + tally (Pc.holds x) s.pcs

def State.pending (s : State ι) (x : Inst) : Nat := tally (Pc.pending x) s.pcs

/-- Instances that a get returned and nobody put are live, no read section sees a
freed instance, every instance is freed once and only when its last reference is
gone, and a live instance is the one its slot points to. -/
structure State.Lifetime (s : State ι) : Prop where
  returned_live : ∀ x, 0 < s.refs x → 0 < s.refcnt x ∧ x ∉ s.freed
  read_live : ∀ t key x, (s.pcs t).reads = some (key, x) → x ∉ s.freed
  freed_dead : ∀ x, x ∈ s.freed → s.refcnt x = 0 ∧ s.pending x = 0 ∧ s.freed.count x = 1
  dead_freed : ∀ x, x.serial < s.next x.key → s.refcnt x = 0 → s.freed.count x + s.pending x = 1
  reachable : ∀ x, 0 < s.refcnt x → s.slot x.key = some x

/-- The reference count is the number of references, and an allocated instance is
referenced, on its way in or out, or freed, and one of these only. -/
structure State.Counted (s : State ι) : Prop where
  refcnt : ∀ x, s.refcnt x = s.refs x
  once : ∀ x, min (s.refcnt x) 1 + s.freed.count x + s.pending x = x.born s.next
  expected : ∀ t key create x n, s.pcs t = .cas key create x n → 0 < n

/-- `x` is referenced, or its slot is about to be cleared. -/
def State.Current (s : State ι) (x : Inst) : Prop :=
  0 < s.refcnt x + tally (Pc.unpublishing x) s.pcs

end Spec

/-! ### What a step does -/

section Effect

variable {ι : Type} [Fintype ι] [DecidableEq ι]

/-- Everything a step can do. In `walk` a thread moves on and neither takes nor gives
a reference; in `free` the instance was cleared from its slot or never published. -/
inductive Effect (s : State ι) : Act ι → State ι → Prop
  | stay {a : Act ι} {enabled : Inst → Bool} : Effect s a { s with enabled := enabled }
  | walk {a : Act ι} {t : ι} {pc : Pc} (holds : ∀ x, Pc.holds x pc = Pc.holds x (s.pcs t))
      (calm : ∀ x, Pc.pending x pc = 0 ∧ Pc.pending x (s.pcs t) = 0)
      (expected : ∀ key create x n, pc = .cas key create x n → 0 < n)
      (reads : ∀ key x, pc.reads = some (key, x) →
        (s.pcs t).reads = some (key, x) ∨ s.slot key = some x) : Effect s a (s.goto t pc)
  | take {t : ι} {key : Key} {create : Bool} {x : Inst}
      (at_ : s.pcs t = .cas key create x (s.refcnt x)) :
      Effect s (.step t)
        ((s.setRefcnt x (s.refcnt x + 1)).goto t (.unlock key create (some x)))
  | hand {t : ι} {key : Key} {create : Bool} {x : Inst}
      (at_ : s.pcs t = .unlock key create (some x)) : Effect s (.step t) ((s.hand x).goto t .idle)
  | alloc {t : ι} {key : Key} (at_ : s.pcs t = .alloc key) :
      Effect s (.step t) ((s.alloc key).goto t (.publish (s.fresh key)))
  | publish {t : ι} {x : Inst} (at_ : s.pcs t = .publish x) (unread : s.noReader x.key.kind) :
      Effect s (.step t)
        ((((s.setSlot x.key (some x)).setRefcnt x 1).hand x).goto t .idle)
  | drop {t : ι} {x : Inst} (idle : s.pcs t = .idle) (held : x ∈ s.holders) :
      Effect s (.put t x) ({ s with holders := s.holders.erase x }.goto t (.dec x))
  | dec {t : ι} {x : Inst} (at_ : s.pcs t = .dec x) :
      Effect s (.step t) ((s.setRefcnt x (s.refcnt x - 1)).goto t
        (if s.refcnt x = 1 then .unpublish x else .idle))
  | unpublish {t : ι} {x : Inst} (at_ : s.pcs t = .unpublish x) (unread : s.noReader x.key.kind) :
      Effect s (.step t) ((s.setSlot x.key none).goto t (.free x))
  | free {a : Act ι} {t : ι} {x : Inst} (at_ : s.pcs t = .free x ∨ s.pcs t = .publish x) :
      Effect s a ((s.release x).goto t .idle)

theorem advance_effect {s s' : State ι} {t : ι} (hstep : s.advance t (s.pcs t) = some s') :
    Effect s (.step t) s' := by
  cases hpc : s.pcs t with
  | idle => simp [State.advance, hpc] at hstep
  | load key create x =>
      simp only [State.advance, hpc] at hstep
      split at hstep <;> cases hstep
      · exact .walk (by simp [hpc, Pc.holds]) (by simp [hpc, Pc.pending]) (by simp)
          (by simp [Pc.reads])
      · refine .walk (by simp [hpc, Pc.holds]) (by simp [hpc, Pc.pending]) ?_
          (by simp [hpc, Pc.reads])
        intro key create x n at_
        cases at_
        omega
  | cas key create x n =>
      simp only [State.advance, hpc] at hstep
      split at hstep <;> cases hstep
      · rename_i same
        subst same
        exact .take hpc
      · exact .walk (by simp [hpc, Pc.holds]) (by simp [hpc, Pc.pending]) (by simp)
          (by simp [hpc, Pc.reads])
  | unlock key create found =>
      cases found with
      | none =>
          cases create with
          | false =>
              simp only [State.advance, hpc] at hstep
              cases hstep
              exact .walk (by simp [hpc, Pc.holds]) (by simp [hpc, Pc.pending]) (by simp)
                (by simp [Pc.reads])
          | true =>
              simp only [State.advance, hpc] at hstep
              cases hstep
              exact .walk (by simp [hpc, Pc.holds]) (by simp [hpc, Pc.pending]) (by simp)
                (by simp [Pc.reads])
      | some x =>
          simp only [State.advance, hpc] at hstep
          split at hstep <;> cases hstep
          · exact .walk (by simp [hpc, Pc.holds]) (by simp [hpc, Pc.pending]) (by simp)
              (by simp [Pc.reads])
          · exact .hand hpc
  | alloc key =>
      simp only [State.advance, hpc, Option.some.injEq] at hstep
      subst hstep
      exact .alloc hpc
  | publish x =>
      simp only [State.advance, hpc] at hstep
      split at hstep <;> cases hstep
      exact .publish hpc ‹_›
  | dec x =>
      simp only [State.advance, hpc, Option.some.injEq] at hstep
      subst hstep
      exact .dec hpc
  | unpublish x =>
      simp only [State.advance, hpc] at hstep
      split at hstep <;> cases hstep
      exact .unpublish hpc ‹_›
  | free x =>
      simp only [State.advance, hpc, Option.some.injEq] at hstep
      subst hstep
      exact .free (Or.inl hpc)

theorem step_effect {nr : Kind → Nat} {s s' : State ι} {a : Act ι}
    (hstep : step nr s a = some s') : Effect s a s' := by
  cases a with
  | get t key create =>
      simp only [step] at hstep
      split at hstep
      · cases hstep
      · rename_i idle
        have idle := not_not.mp idle
        split at hstep
        · split at hstep <;> cases hstep
          exact .stay
        · split at hstep <;> cases hstep
          · exact .walk (by simp [idle, Pc.holds]) (by simp [idle, Pc.pending]) (by simp)
              (by simp [Pc.reads])
          · rename_i found
            refine .walk (by simp [idle, Pc.holds]) (by simp [idle, Pc.pending]) (by simp) ?_
            intro key' x at_
            cases at_
            exact Or.inr found
  | put t x =>
      simp only [step] at hstep
      split at hstep <;> cases hstep
      rename_i held
      exact .drop held.1 held.2
  | setEnabled x enabled =>
      simp only [step] at hstep
      split at hstep <;> cases hstep
      exact .stay
  | fail t =>
      cases hpc : s.pcs t <;> simp only [step, hpc, reduceCtorEq] at hstep
      · cases hstep
        exact .walk (by simp [hpc, Pc.holds]) (by simp [hpc, Pc.pending]) (by simp)
          (by simp [Pc.reads])
      · split at hstep <;> cases hstep
        exact .free (Or.inr hpc)
  | step t => exact advance_effect hstep

end Effect

/-! ### Reference counts -/

section Counted

variable {ι : Type} [Fintype ι]

theorem start_counted : (start ι).Counted := by
  have zero : ∀ w : Pc → Nat, w .idle = 0 → tally w (start ι).pcs = 0 :=
    fun w h => tally_eq_zero fun _ => h
  refine ⟨?_, ?_, fun t key create x n h => by cases h⟩
  · intro x
    have := zero (Pc.holds x) rfl
    simp only [State.refs, this]
    rfl
  · intro x
    have := zero (Pc.pending x) rfl
    simp only [State.pending, this]
    rfl

theorem Pc.unpublishing_le (x : Inst) (pc : Pc) : Pc.unpublishing x pc ≤ Pc.pending x pc := by
  cases pc <;> simp [Pc.unpublishing, Pc.pending]

theorem Inst.born_le (next : Key → Nat) (x : Inst) : x.born next ≤ 1 := by
  unfold Inst.born
  split <;> omega

omit [Fintype ι] in
theorem State.born_alloc (s : State ι) (key : Key) (x : Inst) :
    x.born (s.alloc key).next = x.born s.next + if s.fresh key = x then 1 else 0 := by
  obtain ⟨k, n⟩ := x
  simp only [Inst.born, State.alloc, State.fresh, Inst.mk.injEq]
  by_cases own : k = key
  · subst own
    simp only [Function.update_self, true_and]
    split <;> split <;> split <;> omega
  · simp [own, Ne.symm own]

theorem State.Counted.dec_pos {s : State ι} (h : s.Counted) {t : ι} {x : Inst}
    (at_ : s.pcs t = .dec x) : 0 < s.refcnt x := by
  have := le_tally (Pc.holds x) s.pcs t
  have := h.refcnt x
  simp only [State.refs, at_, Pc.holds, if_true] at *
  omega

/-- An instance about to be published has no reference yet. -/
theorem State.Counted.publish_zero {s : State ι} (h : s.Counted) {t : ι} {x : Inst}
    (at_ : s.pcs t = .publish x) : s.refcnt x = 0 := by
  have := le_tally (Pc.pending x) s.pcs t
  have once := h.once x
  simp only [State.pending, at_, Pc.pending, if_true] at *
  have := x.born_le s.next
  omega

/-- One thread clears the slot of an instance that nobody references. -/
theorem State.Counted.unpublish_sole {s : State ι} (h : s.Counted) {t : ι} {x : Inst}
    (at_ : s.pcs t = .unpublish x) : s.refcnt x = 0 ∧ tally (Pc.unpublishing x) s.pcs = 1 := by
  have own := le_tally (Pc.unpublishing x) s.pcs t
  have part : tally (Pc.unpublishing x) s.pcs ≤ tally (Pc.pending x) s.pcs :=
    tally_le (Pc.unpublishing_le x) s.pcs
  have once := h.once x
  have := x.born_le s.next
  simp only [State.pending, at_, Pc.unpublishing, if_true] at *
  omega

variable [DecidableEq ι]

/-- A thread moves on; the tallies change by its weights. -/
theorem State.refs_goto (s : State ι) (t : ι) (pc : Pc) (x : Inst) :
    (s.goto t pc).refs x + Pc.holds x (s.pcs t) = s.refs x + Pc.holds x pc := by
  have := tally_update (Pc.holds x) s.pcs t pc
  simp only [State.refs, State.goto]
  omega

theorem State.pending_goto (s : State ι) (t : ι) (pc : Pc) (x : Inst) :
    (s.goto t pc).pending x + Pc.pending x (s.pcs t) = s.pending x + Pc.pending x pc :=
  tally_update (Pc.pending x) s.pcs t pc

/-- **Step lemma.** A thread moves while counts, references and frees change in
balance with its own weights. -/
theorem State.Counted.goto {s s₁ : State ι} (h : s.Counted) {t : ι} {pc : Pc}
    (pcs : s₁.pcs = s.pcs) (expected : ∀ key create x n, pc = .cas key create x n → 0 < n)
    (refcnt : ∀ x, s₁.refcnt x + s.holders.count x + Pc.holds x (s.pcs t) =
      s.refcnt x + s₁.holders.count x + Pc.holds x pc)
    (once : ∀ x, min (s₁.refcnt x) 1 + s₁.freed.count x + Pc.pending x pc + x.born s.next =
      min (s.refcnt x) 1 + s.freed.count x + Pc.pending x (s.pcs t) + x.born s₁.next) :
    (s₁.goto t pc).Counted := by
  refine ⟨?_, ?_, ?_⟩
  · intro x
    have moved := s₁.refs_goto t pc x
    have before := h.refcnt x
    have balance := refcnt x
    rw [pcs] at moved
    simp only [State.refs, State.goto, pcs] at *
    omega
  · intro x
    have moved := s₁.pending_goto t pc x
    have before := h.once x
    have balance := once x
    rw [pcs] at moved
    simp only [State.pending, State.goto, pcs] at *
    omega
  · intro u key create x n at_
    simp only [State.goto, pcs] at at_
    by_cases own : u = t
    · subst own
      rw [Function.update_self] at at_
      exact expected _ _ _ _ at_
    · rw [Function.update_of_ne own] at at_
      exact h.expected u key create x n at_

/-- A reference count is set, and the thread moves. -/
theorem State.Counted.setRefcnt {s : State ι} (h : s.Counted) {t : ι} {pc : Pc} {x : Inst} {n : Nat}
    (expected : ∀ key create x n, pc ≠ .cas key create x n)
    (refcnt : n + Pc.holds x (s.pcs t) = s.refcnt x + Pc.holds x pc)
    (once : min n 1 + Pc.pending x pc = min (s.refcnt x) 1 + Pc.pending x (s.pcs t))
    (others : ∀ y, y ≠ x → Pc.holds y pc = Pc.holds y (s.pcs t) ∧
      Pc.pending y pc = Pc.pending y (s.pcs t)) : ((s.setRefcnt x n).goto t pc).Counted := by
  refine h.goto rfl (fun key create x n at_ => absurd at_ (expected key create x n))
    (fun y => ?_) fun y => ?_
  all_goals
    simp only [State.setRefcnt]
    by_cases own : y = x
    · subst own
      rw [Function.update_self]
      omega
    · have := others y own
      rw [Function.update_of_ne own]
      omega

theorem step_counted {s s' : State ι} {a : Act ι} (h : s.Counted) (effect : Effect s a s') :
    s'.Counted := by
  cases effect with
  | stay => exact ⟨h.refcnt, h.once, h.expected⟩
  | walk holds calm expected _ =>
      refine h.goto rfl expected ?_ ?_
      · intro y
        rw [holds y]
      · intro y
        rw [(calm y).1, (calm y).2]
  | @take t key create x at_ =>
      have pos := h.expected t key create x _ at_
      refine h.setRefcnt (by simp) ?_ ?_ ?_
      · simp [at_, Pc.holds]
      · simp only [at_, Pc.pending]
        omega
      · intro y other
        simp [at_, Pc.holds, Pc.pending, other.symm]
  | hand at_ =>
      refine h.goto rfl (by simp) ?_ ?_
      · intro y
        simp only [at_, State.hand, Pc.holds, List.count_cons, beq_iff_eq]
        omega
      · intro y
        simp [at_, State.hand, Pc.pending]
  | @alloc t key at_ =>
      refine h.goto rfl (by simp) ?_ ?_
      · intro y
        simp [at_, Pc.holds, State.alloc]
      · intro y
        have := s.born_alloc key y
        simp only [State.alloc, at_, Pc.pending] at *
        omega
  | @publish t x at_ _ =>
      have zero := h.publish_zero at_
      refine h.goto rfl (by simp) (fun y => ?_) fun y => ?_
      all_goals
        simp only [at_, State.hand, State.setRefcnt, State.setSlot, Pc.holds, Pc.pending,
          List.count_cons, beq_iff_eq]
        by_cases own : y = x
        · subst own
          simp [zero, Nat.add_comm]
        · simp [own, Ne.symm own]
  | @drop t x idle held =>
      refine h.goto rfl (by simp) ?_ ?_
      · intro y
        have := List.count_pos_iff.mpr held
        simp only [idle, Pc.holds, List.count_erase, beq_iff_eq]
        by_cases own : x = y
        · subst own
          simp only [if_true]
          omega
        · simp only [if_neg own]
          omega
      · intro y
        simp [idle, Pc.pending]
  | @dec t x at_ =>
      have pos := h.dec_pos at_
      split
      · rename_i last
        refine h.setRefcnt (by simp) ?_ ?_ ?_
        · simp [at_, Pc.holds, last]
        · simp [at_, Pc.pending, last]
        · intro y other
          simp [at_, Pc.holds, Pc.pending, other.symm]
      · refine h.setRefcnt (by simp) ?_ ?_ ?_
        · simp only [at_, Pc.holds, if_true]
          omega
        · simp only [at_, Pc.pending]
          omega
        · intro y other
          simp [at_, Pc.holds, Pc.pending, other.symm]
  | unpublish at_ _ =>
      refine h.goto rfl (by simp) ?_ ?_
      · intro y
        simp [at_, State.setSlot, Pc.holds]
      · intro y
        simp [at_, State.setSlot, Pc.pending]
  | free at_ =>
      refine h.goto rfl (by simp) ?_ ?_
      · intro y
        rcases at_ with at_ | at_ <;> simp [at_, State.release, Pc.holds]
      · intro y
        simp only [State.release, List.count_cons, beq_iff_eq]
        rcases at_ with at_ | at_
        all_goals
          simp only [at_, Pc.pending]
          omega

end Counted

/-! ### Slots -/

section Slots

variable {ι : Type} [Fintype ι]

/-- A slot points to an instance of its own id that is current, and a read section
keeps its slot as it found it. -/
structure State.Located (s : State ι) : Prop where
  current : ∀ key x, s.slot key = some x → x.key = key ∧ s.Current x
  reader : ∀ t key x, (s.pcs t).reads = some (key, x) → s.slot key = some x

/-- How a step changes the slots and which instances are current. -/
inductive Move (s : State ι) (a : Act ι) (s' : State ι) : Prop
  | keep (slot : s'.slot = s.slot) (current : ∀ x, s'.Current x ↔ s.Current x)
      (reads : ∀ t key x, (s'.pcs t).reads = some (key, x) →
        (s.pcs t).reads = some (key, x) ∨ s.slot key = some x)
  | publish (x : Inst) (t : ι) (act : a = .step t) (at_ : s.pcs t = .publish x)
      (unread : s.noReader x.key.kind)
      (slot : s'.slot = Function.update s.slot x.key (some x))
      (current : ∀ y, s'.Current y ↔ y = x ∨ s.Current y)
      (reads : ∀ t key x, (s'.pcs t).reads = some (key, x) → (s.pcs t).reads = some (key, x))
  | unpublish (x : Inst) (unread : s.noReader x.key.kind)
      (slot : s'.slot = Function.update s.slot x.key none)
      (own : s.Current x) (current : ∀ y, s'.Current y ↔ y ≠ x ∧ s.Current y)
      (reads : ∀ t key x, (s'.pcs t).reads = some (key, x) → (s.pcs t).reads = some (key, x))

theorem Pc.reading_of_reads {pc : Pc} {key : Key} {x : Inst} (h : pc.reads = some (key, x)) :
    pc.reading key.kind = true := by
  cases pc <;> simp_all [Pc.reads, Pc.reading]

theorem start_located : (start ι).Located :=
  ⟨fun _ _ h => (by cases h), fun _ _ _ h => (by cases h)⟩

/-- A write section runs beside readers of the other kind only. -/
theorem State.noReader.other_kind {s : State ι} {t : ι} {key : Key} {x y : Inst}
    (unread : s.noReader y.key.kind) (reads : (s.pcs t).reads = some (key, x)) : key ≠ y.key := by
  rintro rfl
  have := unread t
  rw [Pc.reading_of_reads reads] at this
  cases this

theorem State.Located.step {s s' : State ι} {a : Act ι} (h : s.Located) (move : Move s a s') :
    s'.Located := by
  cases move with
  | keep slot current reads =>
      constructor
      · intro key x at_
        rw [slot] at at_
        rw [current]
        exact h.current key x at_
      · intro t key x at_
        rw [slot]
        rcases reads t key x at_ with before | entered
        · exact h.reader t key x before
        · exact entered
  | publish x t _ _ unread slot current reads =>
      constructor
      · intro key y at_
        rw [slot] at at_
        rw [current]
        by_cases same : key = x.key
        · subst same
          rw [Function.update_self] at at_
          cases at_
          exact ⟨rfl, Or.inl rfl⟩
        · rw [Function.update_of_ne same] at at_
          exact ⟨(h.current key y at_).1, Or.inr (h.current key y at_).2⟩
      · intro u key y at_
        have before := reads u key y at_
        rw [slot, Function.update_of_ne (unread.other_kind before)]
        exact h.reader u key y before
  | unpublish x unread slot _ current reads =>
      constructor
      · intro key y at_
        rw [slot] at at_
        by_cases same : key = x.key
        · subst same
          rw [Function.update_self] at at_
          cases at_
        · rw [Function.update_of_ne same] at at_
          obtain ⟨own, live⟩ := h.current key y at_
          refine ⟨own, (current y).mpr ⟨?_, live⟩⟩
          rintro rfl
          exact same own.symm
      · intro u key y at_
        have before := reads u key y at_
        rw [slot, Function.update_of_ne (unread.other_kind before)]
        exact h.reader u key y before

/-- A current instance is the one its slot points to. -/
def State.Reachable (s : State ι) : Prop := ∀ x, s.Current x → s.slot x.key = some x

/-- **Step lemma.** Publication into an empty slot takes the slot from nobody, and
an instance that clears its slot clears its own. -/
theorem State.Reachable.step {s s' : State ι} {a : Act ι} (h : s.Reachable) (guard : SlotEmpty s a)
    (move : Move s a s') : s'.Reachable := by
  cases move with
  | keep slot current _ =>
      intro x live
      rw [slot]
      exact h x ((current x).mp live)
  | publish x t act at_ _ slot current _ =>
      have empty : s.slot x.key = none := by
        subst act
        simpa only [SlotEmpty, at_] using guard
      intro y live
      rw [slot]
      rcases (current y).mp live with rfl | live
      · exact Function.update_self ..
      · have own := h y live
        rw [Function.update_of_ne (fun same => by rw [same, empty] at own; cases own)]
        exact own
  | unpublish x _ slot own current _ =>
      intro y live
      obtain ⟨other, live⟩ := (current y).mp live
      rw [slot]
      by_cases same : y.key = x.key
      · have mine := h x own
        rw [← same, h y live] at mine
        cases mine
        exact absurd rfl other
      · rw [Function.update_of_ne same]
        exact h y live

variable [DecidableEq ι]

theorem State.current_goto {s s₁ : State ι} (pcs : s₁.pcs = s.pcs) {t : ι} {pc : Pc} {x : Inst}
    (same : 0 < s₁.refcnt x + Pc.unpublishing x pc ↔
      0 < s.refcnt x + Pc.unpublishing x (s.pcs t)) : (s₁.goto t pc).Current x ↔ s.Current x := by
  have moved := tally_update (Pc.unpublishing x) s.pcs t pc
  have own := le_tally (Pc.unpublishing x) s.pcs t
  simp only [State.Current, State.goto, pcs]
  omega

omit [Fintype ι] in
theorem State.reads_goto {s s₁ : State ι} (pcs : s₁.pcs = s.pcs) {t u : ι} {pc : Pc}
    {seen : Key × Inst} (h : ((s₁.goto t pc).pcs u).reads = some seen) :
    pc.reads = some seen ∨ (s.pcs u).reads = some seen := by
  simp only [State.goto, pcs] at h
  by_cases own : u = t
  · subst own
    rw [Function.update_self] at h
    exact Or.inl h
  · rw [Function.update_of_ne own] at h
    exact Or.inr h

/-- A thread moves inside the same slots. -/
theorem Move.goto {s s₁ : State ι} {a : Act ι} {t : ι} {pc : Pc} (pcs : s₁.pcs = s.pcs)
    (slot : s₁.slot = s.slot)
    (current : ∀ x, 0 < s₁.refcnt x + Pc.unpublishing x pc ↔
      0 < s.refcnt x + Pc.unpublishing x (s.pcs t))
    (reads : ∀ key x, pc.reads = some (key, x) →
      (s.pcs t).reads = some (key, x) ∨ s.slot key = some x) : Move s a (s₁.goto t pc) := by
  refine .keep slot (fun x => State.current_goto pcs (current x)) ?_
  intro u key x at_
  simp only [State.goto, pcs] at at_
  by_cases own : u = t
  · subst own
    rw [Function.update_self] at at_
    exact reads key x at_
  · rw [Function.update_of_ne own] at at_
    exact Or.inl at_

theorem step_move {s s' : State ι} {a : Act ι} (h : s.Counted) (effect : Effect s a s') :
    Move s a s' := by
  cases effect with
  | stay => exact .keep rfl (fun _ => Iff.rfl) fun _ _ _ => Or.inl
  | @walk a t pc holds calm expected reads =>
      refine .goto rfl rfl ?_ reads
      intro y
      have := Pc.unpublishing_le y pc
      have := Pc.unpublishing_le y (s.pcs t)
      have := calm y
      omega
  | @take t key create x at_ =>
      have pos := h.expected t key create x _ at_
      refine .goto rfl rfl ?_ (by simp [Pc.reads])
      intro y
      simp only [at_, State.setRefcnt, Pc.unpublishing]
      by_cases own : y = x
      · subst own
        rw [Function.update_self]
        omega
      · rw [Function.update_of_ne own]
  | hand at_ | alloc at_ | drop at_ _ =>
      exact .goto rfl rfl (fun y => by rw [at_]; rfl) (by simp [Pc.reads])
  | @publish t x at_ unread =>
      refine .publish x t rfl at_ unread rfl ?_ ?_
      · intro y
        by_cases own : y = x
        · subst own
          simp [State.Current, State.goto, State.hand, State.setRefcnt]
        · refine Iff.trans (State.current_goto (s := s) (by rfl) ?_) (or_iff_right own).symm
          simp [at_, State.hand, State.setRefcnt, State.setSlot, Pc.unpublishing, own]
      · intro u key y reads
        rcases State.reads_goto (s := s) rfl reads with new | before
        · cases new
        · exact before
  | @dec t x at_ =>
      have pos := h.dec_pos at_
      refine .goto rfl rfl ?_ (by split <;> simp [Pc.reads])
      intro y
      simp only [at_, State.setRefcnt]
      by_cases own : y = x
      · subst own
        rw [Function.update_self]
        split <;> simp only [Pc.unpublishing, if_true] <;> omega
      · rw [Function.update_of_ne own]
        split <;> simp [Pc.unpublishing, Ne.symm own]
  | @unpublish t x at_ unread =>
      obtain ⟨zero, sole⟩ := h.unpublish_sole at_
      refine .unpublish x unread rfl ?_ ?_ ?_
      · simp only [State.Current]
        omega
      · intro y
        by_cases same : y = x
        · subst same
          have moved := tally_update (Pc.unpublishing y) s.pcs t (.free y)
          simp only [at_, Pc.unpublishing, if_true] at moved
          have gone : ¬ ((s.setSlot y.key none).goto t (.free y)).Current y := by
            simp only [State.Current, State.goto, State.setSlot, zero]
            omega
          exact ⟨fun live => absurd live gone, fun live => absurd rfl live.1⟩
        · refine Iff.trans (State.current_goto (s := s) (by rfl) ?_) (and_iff_right same).symm
          simp [at_, State.setSlot, Pc.unpublishing, Ne.symm same]
      · intro u key y reads
        rcases State.reads_goto (s := s) rfl reads with new | before
        · cases new
        · exact before
  | free at_ =>
      refine .goto rfl rfl ?_ (by simp [Pc.reads])
      intro y
      rcases at_ with at_ | at_ <;> rw [at_] <;> rfl

end Slots

/-! ### The lifetime of an instance -/

section Lifetime

variable {ι : Type} [Fintype ι]

theorem start_reachable : (start ι).Reachable := by
  intro x live
  have : tally (Pc.unpublishing x) (start ι).pcs = 0 := tally_eq_zero fun _ => rfl
  have zero : (start ι).refcnt x = 0 := rfl
  simp only [State.Current] at live
  omega

theorem State.lifetime {s : State ι} (counted : s.Counted) (located : s.Located)
    (reachable : s.Reachable) : s.Lifetime := by
  have once : ∀ x, min (s.refcnt x) 1 + s.freed.count x + s.pending x ≤ 1 := fun x => by
    have := counted.once x
    have := x.born_le s.next
    omega
  refine ⟨?_, ?_, ?_, ?_, fun x live => reachable x (by simp only [State.Current]; omega)⟩
  · intro x held
    have live := counted.refcnt x
    have := once x
    refine ⟨by omega, fun freed => ?_⟩
    have := List.count_pos_iff.mpr freed
    omega
  · intro t key x reads freed
    have live := (located.current key x (located.reader t key x reads)).2
    have part : tally (Pc.unpublishing x) s.pcs ≤ s.pending x :=
      tally_le (Pc.unpublishing_le x) s.pcs
    have := once x
    have := List.count_pos_iff.mpr freed
    simp only [State.Current] at live
    omega
  · intro x freed
    have := once x
    have := List.count_pos_iff.mpr freed
    omega
  · intro x born dead
    have := counted.once x
    rw [Inst.born, if_pos born] at this
    omega

variable [DecidableEq ι]

/-- **Lifetime of queue instances.** For every number of threads and every
interleaving in which an instance is published into an empty slot, gets return live
instances, each instance is freed exactly once, and a referenced instance stays
reachable through its slot. -/
theorem registry_lifetime {nr : Kind → Nat} {as : List (Act ι)} {s : State ι}
    (guard : Guarded (step nr) SlotEmpty (start ι) as)
    (hrun : run (step nr) (start ι) as = some s) : s.Lifetime := by
  have kept := run_inv (I := fun s : State ι => s.Counted ∧ s.Located ∧ s.Reachable)
    (fun s a s' h g hs =>
      have effect := step_effect hs
      have move := step_move h.1 effect
      ⟨step_counted h.1 effect, h.2.1.step move, h.2.2.step g move⟩)
    ⟨start_counted, start_located, start_reachable⟩ guard hrun
  exact State.lifetime kept.1 kept.2.1 kept.2.2

/-- One slot of each kind for ids 0 and 1. -/
def twoQueues : Kind → Nat := fun _ => 2

def sq1 : Key := ⟨.sq, 1⟩

/-- Thread `a` creates SQ 1, `b` takes a reference while `a` drops its own,
and the SQ is created again after the last reference is gone. -/
def recreatedRun : List (Act Thread) :=
  [.get .a sq1 true, .step .a, .step .a, .step .a, .get .b sq1 false, .step .b, .put .a ⟨sq1, 0⟩,
    .step .b, .step .a, .step .b, .put .b ⟨sq1, 0⟩, .step .b, .step .b, .step .b,
    .get .a sq1 true, .step .a, .step .a, .step .a]

theorem registry_lifetime_recreated :
    ∃ s, run (step twoQueues) (start Thread) recreatedRun = some s ∧
      s.freed = [⟨sq1, 0⟩] ∧ s.slot sq1 = some ⟨sq1, 1⟩ ∧ s.Lifetime :=
  ⟨_, rfl, rfl, rfl, registry_lifetime
    (show Guarded (step twoQueues) SlotEmpty (start Thread) recreatedRun by decide) rfl⟩

/-- Thread `a` drops the last reference to SQ 1; before it clears the slot, `b`
finds the count at 0 and publishes a second instance. -/
def overtakenRun : List (Act Thread) :=
  [.get .a sq1 true, .step .a, .step .a, .step .a, .put .a ⟨sq1, 0⟩, .step .a,
    .get .b sq1 true, .step .b, .step .b, .step .b, .step .b, .step .a]

/-- Freeing the older instance unpublishes the newer one. -/
theorem free_unpublishes_newer :
    ¬ ∀ (as : List (Act Thread)) (s : State Thread),
      run (step twoQueues) (start Thread) as = some s → s.Lifetime := by
  intro all
  have bad := all overtakenRun _ rfl
  exact absurd (bad.reachable ⟨sq1, 1⟩ (by decide)) (by decide)

end Lifetime

end Unvmed.Registry
