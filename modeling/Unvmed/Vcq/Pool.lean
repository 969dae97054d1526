import Unvmed.Lib.Run
import Unvmed.Lib.Tally
import Unvmed.Lib.Linked
import Unvmed.Basic

/-!
The VCQ id pool (`lib/libunvmed-vcq.c`): a lock-free free stack of slots.

`unvmed_vcq_acquire` reads `slot->next` before its compare-and-swap, and the
stack has no version tag. Every load, store and compare-and-swap is one step
here, any number of threads interleave, and a failed compare-and-swap reloads
the expected value, as libvfn's `atomic_cmpxchg` does.

* `acquire_reuses_held_id`: without further assumptions the pool hands out an id
  that is still held. A thread that sleeps between its load of `slot->next` and
  its compare-and-swap while the slot is popped and pushed back installs a stale
  successor.
* `pool_partitioned`: in every run where no compare-and-swap of an acquire finds
  its slot back on top with another successor (`NoAba`), held ids and free ids
  partition `1 .. UNVME_VCQ_MAX - 1`.
-/

namespace Unvmed.Vcq

open Lib

/-- `struct unvme_vcq_slot`; a pointer to a slot is its index in `__vcq_slots`. -/
structure PoolSlot where
  qid : Nat
  next : Option Nat
  deriving DecidableEq, Repr

/-- `__vcq_slots` and `__vcq_free_top`. -/
structure Pool where
  slots : Nat → PoolSlot
  freeTop : Option Nat

/-- The successor of every slot, as a memory for `Linked`. -/
def Pool.next (p : Pool) (i : Nat) : Option Nat := (p.slots i).next

/-- `slot->next = v`. -/
def Pool.setNext (p : Pool) (i : Nat) (v : Option Nat) : Pool :=
  { p with slots := Function.update p.slots i { p.slots i with next := v } }

/-- `unvmed_vcq_pool_init`: slots `1 .. UNVME_VCQ_MAX - 1` are linked in order;
slot 0 stays zeroed. -/
def vcqPoolInit : Pool where
  slots i :=
    if 1 ≤ i ∧ i < vcqMax then ⟨i, if i + 1 < vcqMax then some (i + 1) else none⟩ else ⟨0, none⟩
  freeTop := some 1

/-- Where a thread is in `unvmed_vcq_acquire` or `unvmed_vcq_release`. -/
inductive PoolPc where
  | idle
  /-- `slot` was loaded from the top; next is the load of `slot->next`. -/
  | acquireNext (slot : Nat)
  /-- Next is `atomic_cmpxchg(&__vcq_free_top, slot, next)`. -/
  | acquireCas (slot : Nat) (next : Option Nat)
  /-- Next is the load of the top in `slot->next = atomic_load_acquire(..)`. -/
  | releaseLoad (qid : Nat)
  /-- Next is the store of the loaded top into `slot->next`. -/
  | releaseStore (qid : Nat) (top : Option Nat)
  /-- Next is `atomic_cmpxchg(&__vcq_free_top, slot->next, slot)`. -/
  | releaseCas (qid : Nat)
  deriving DecidableEq, Repr

/-- The pool, the ids handed out and not yet given back, and the threads. -/
structure PoolState (ι : Type) where
  pool : Pool
  held : List Nat
  pcs : ι → PoolPc

/-- A thread enters one of the two functions, or takes its next atomic step. -/
inductive PoolAct (ι : Type) where
  | acquire (t : ι)
  | release (t : ι) (qid : Nat)
  | step (t : ι)
  deriving Repr

/-- After a load of the top: an empty stack ends the acquire with `ENOSPC`. -/
def PoolPc.afterLoad : Option Nat → PoolPc
  | none => .idle
  | some slot => .acquireNext slot

section Step

variable {ι : Type} [DecidableEq ι]

def PoolState.goto (s : PoolState ι) (t : ι) (pc : PoolPc) : PoolState ι :=
  { s with pcs := Function.update s.pcs t pc }

/-- One atomic step. Only held ids are released: a thread that enters
`unvmed_vcq_release` takes its id out of `held` and keeps it in its own program
counter until the push succeeds. -/
def poolStep (s : PoolState ι) : PoolAct ι → Option (PoolState ι)
  | .acquire t => match s.pcs t with
      | .idle => some (s.goto t (.afterLoad s.pool.freeTop))
      | _ => none
  | .release t qid => match s.pcs t with
      | .idle =>
          if qid ∈ s.held then some ({ s with held := s.held.erase qid }.goto t (.releaseLoad qid))
          else none
      | _ => none
  | .step t => match s.pcs t with
      | .idle => none
      | .acquireNext slot => some (s.goto t (.acquireCas slot (s.pool.next slot)))
      | .acquireCas slot next =>
          if s.pool.freeTop = some slot then
            some ({ s with pool := { s.pool with freeTop := next },
                           held := (s.pool.slots slot).qid :: s.held }.goto t .idle)
          else some (s.goto t (.afterLoad s.pool.freeTop))
      | .releaseLoad qid => some (s.goto t (.releaseStore qid s.pool.freeTop))
      | .releaseStore qid top =>
          some ({ s with pool := s.pool.setNext qid top }.goto t (.releaseCas qid))
      | .releaseCas qid =>
          if s.pool.freeTop = s.pool.next qid then
            some ({ s with pool := { s.pool with freeTop := some qid } }.goto t .idle)
          -- The failed exchange writes the top it saw into its expected value, `slot->next`.
          else some { s with pool := s.pool.setNext qid s.pool.freeTop }

def poolStart (ι : Type) : PoolState ι := ⟨vcqPoolInit, [], fun _ => .idle⟩

/-- No compare-and-swap of an acquire finds its slot on top with a successor
other than the one it loaded. -/
def NoAba (s : PoolState ι) : PoolAct ι → Prop
  | .step t => match s.pcs t with
      | .acquireCas slot next => s.pool.freeTop = some slot → s.pool.next slot = next
      | _ => True
  | _ => True

instance (s : PoolState ι) (a : PoolAct ι) : Decidable (NoAba s a) := by
  unfold NoAba
  split
  · split <;> infer_instance
  all_goals infer_instance

end Step

/-! ### What the pool is for -/

/-- The weight of a thread as an owner of `qid`: 1 while it is giving it back. -/
def PoolPc.releasing (qid : Nat) : PoolPc → Nat
  | .releaseLoad q | .releaseStore q _ | .releaseCas q => if q = qid then 1 else 0
  | _ => 0

variable {ι : Type} [Fintype ι]

/-- How many owners `qid` has: holders, and threads still giving it back. -/
def PoolState.owners (s : PoolState ι) (qid : Nat) : Nat :=
  s.held.count qid + tally (PoolPc.releasing qid) s.pcs

/-- `qid` can be reached from the top of the free stack. -/
def PoolState.OnStack (s : PoolState ι) (qid : Nat) : Prop :=
  Reaches s.pool.next s.pool.freeTop qid

/-- Held ids and free ids partition `1 .. UNVME_VCQ_MAX - 1`, one owner each. -/
structure PoolState.Partitioned (s : PoolState ι) : Prop where
  one_owner : ∀ qid, s.owners qid ≤ 1
  held_not_free : ∀ qid, 0 < s.owners qid → ¬ s.OnStack qid
  held_in_range : ∀ qid, 0 < s.owners qid → 1 ≤ qid ∧ qid < vcqMax
  none_lost : ∀ qid, 1 ≤ qid → qid < vcqMax → 0 < s.owners qid ∨ s.OnStack qid

/-! ### The invariant -/

@[simp] theorem Pool.setNext_next (p : Pool) (i : Nat) (v : Option Nat) :
    (p.setNext i v).next = Function.update p.next i v := by
  funext j
  by_cases h : j = i
  · subst h
    simp [Pool.setNext, Pool.next]
  · simp [Pool.setNext, Pool.next, h]

@[simp] theorem Pool.setNext_freeTop (p : Pool) (i : Nat) (v : Option Nat) :
    (p.setNext i v).freeTop = p.freeTop := rfl

theorem Pool.setNext_qid (p : Pool) (i j : Nat) (v : Option Nat) :
    ((p.setNext i v).slots j).qid = (p.slots j).qid := by
  by_cases h : j = i
  · subst h
    simp [Pool.setNext]
  · simp [Pool.setNext, h]

/-- 1 for an id of the pool, 0 for any other number. -/
def inPool (qid : Nat) : Nat := if 1 ≤ qid ∧ qid < vcqMax then 1 else 0

/-- The free stack is a chain, and every id of the pool is owned once or on the
chain once. -/
def PoolState.Inv (s : PoolState ι) : Prop :=
  (∀ i, 1 ≤ i → i < vcqMax → (s.pool.slots i).qid = i) ∧
    ∃ stack, Linked s.pool.next s.pool.freeTop stack ∧
      ∀ qid, s.owners qid + stack.count qid = inPool qid

theorem PoolState.Inv.partitioned {s : PoolState ι} (h : s.Inv) : s.Partitioned := by
  obtain ⟨-, stack, chain, balance⟩ := h
  have onStack : ∀ qid, s.OnStack qid ↔ 0 < stack.count qid := fun qid => by
    rw [PoolState.OnStack, chain.reaches_iff, List.count_pos_iff]
  refine ⟨?_, ?_, ?_, ?_⟩
  · intro qid
    have := balance qid
    unfold inPool at this
    split at this <;> omega
  · intro qid owned
    rw [onStack]
    have := balance qid
    unfold inPool at this
    split at this <;> omega
  · intro qid owned
    have := balance qid
    unfold inPool at this
    split at this
    · assumption
    · omega
  · intro qid low high
    rw [onStack]
    have := balance qid
    rw [inPool, if_pos ⟨low, high⟩] at this
    omega

/-- A thread that owns an id keeps the free stack off its slot, so it may write
the slot's successor. -/
theorem PoolState.Inv.setNext {s : PoolState ι} (h : s.Inv) {qid : Nat} (owned : 0 < s.owners qid)
    (v : Option Nat) : ({ s with pool := s.pool.setNext qid v } : PoolState ι).Inv := by
  obtain ⟨ids, stack, chain, balance⟩ := h
  have outside : qid ∉ stack := by
    intro mem
    have := List.count_pos_iff.mpr mem
    have := balance qid
    unfold inPool at this
    split at this <;> omega
  refine ⟨fun i low high => by rw [Pool.setNext_qid]; exact ids i low high, stack, ?_, balance⟩
  rw [Pool.setNext_next, Pool.setNext_freeTop]
  exact chain.update outside v

theorem owned_of_releasing {s : PoolState ι} {t : ι} {qid : Nat}
    (h : PoolPc.releasing qid (s.pcs t) = 1) : 0 < s.owners qid := by
  have := le_tally (PoolPc.releasing qid) s.pcs t
  simp only [PoolState.owners]
  omega

private theorem linked_init (n : Nat) : ∀ i, 1 ≤ i → i + n = vcqMax →
    Linked vcqPoolInit.next (if i < vcqMax then some i else none) (List.range' i n) := by
  induction n with
  | zero =>
      intro i _ h
      simp [Linked, show ¬ i < vcqMax by omega]
  | succ n ih =>
      intro i low h
      have high : i < vcqMax := by omega
      refine ⟨by simp [high], ?_⟩
      have : vcqPoolInit.next i = if i + 1 < vcqMax then some (i + 1) else none := by
        simp [Pool.next, vcqPoolInit, low, high]
      rw [this]
      exact ih (i + 1) (by omega) (by omega)

theorem poolStart_inv : (poolStart ι).Inv := by
  refine ⟨fun i low high => by simp [poolStart, vcqPoolInit, low, high],
    List.range' 1 (vcqMax - 1), ?_, fun qid => ?_⟩
  · exact linked_init (vcqMax - 1) 1 (by decide) (by decide)
  · have idle : (poolStart ι).owners qid = 0 := by
      simp only [PoolState.owners, poolStart, List.count_nil, Nat.zero_add]
      exact tally_eq_zero fun _ => rfl
    rw [idle, (List.nodup_range' 1).count]
    simp only [List.mem_range'_1, Nat.zero_add, inPool]
    rfl

variable [DecidableEq ι]

/-- A thread moves on without giving or taking an id. -/
theorem PoolState.owners_goto (s : PoolState ι) (t : ι) (pc : PoolPc) (qid : Nat) :
    (s.goto t pc).owners qid + PoolPc.releasing qid (s.pcs t) =
      s.owners qid + PoolPc.releasing qid pc := by
  have := tally_update (PoolPc.releasing qid) s.pcs t pc
  simp only [PoolState.owners, PoolState.goto]
  omega

theorem PoolState.Inv.goto {s : PoolState ι} (h : s.Inv) {t : ι} {pc : PoolPc}
    (same : ∀ qid, PoolPc.releasing qid pc = PoolPc.releasing qid (s.pcs t)) : (s.goto t pc).Inv := by
  obtain ⟨ids, stack, chain, balance⟩ := h
  refine ⟨ids, stack, chain, ?_⟩
  intro qid
  have := s.owners_goto t pc qid
  have := same qid
  have := balance qid
  omega

theorem PoolPc.releasing_afterLoad (qid : Nat) (top : Option Nat) :
    PoolPc.releasing qid (.afterLoad top) = 0 := by
  cases top <;> rfl

/-- Popping the slot on top moves its id from the stack to the holders. -/
theorem PoolState.Inv.pop {s : PoolState ι} (h : s.Inv) {t : ι} {slot : Nat}
    (quiet : ∀ qid, PoolPc.releasing qid (s.pcs t) = 0) (top : s.pool.freeTop = some slot) :
    ({ s with pool := { s.pool with freeTop := s.pool.next slot },
              held := (s.pool.slots slot).qid :: s.held }.goto t .idle : PoolState ι).Inv := by
  obtain ⟨ids, stack, chain, balance⟩ := h
  rw [top] at chain
  obtain ⟨rest, rfl, tail⟩ := chain.uncons
  have range : 1 ≤ slot ∧ slot < vcqMax := by
    have := balance slot
    unfold inPool at this
    split at this
    · assumption
    · simp at this
  have own : (s.pool.slots slot).qid = slot := ids slot range.1 range.2
  refine ⟨ids, rest, tail, ?_⟩
  intro qid
  have moved := tally_update (PoolPc.releasing qid) s.pcs t .idle
  have := quiet qid
  have total := balance qid
  simp only [PoolState.owners, PoolState.goto, own, List.count_cons, PoolPc.releasing] at *
  omega

/-- Pushing a slot whose successor is the top moves its id from the releasing
thread to the stack. -/
theorem PoolState.Inv.push {s : PoolState ι} (h : s.Inv) {t : ι} {slot : Nat}
    (mine : s.pcs t = .releaseCas slot) (linked : s.pool.freeTop = s.pool.next slot) :
    ({ s with pool := { s.pool with freeTop := some slot } }.goto t .idle : PoolState ι).Inv := by
  obtain ⟨ids, stack, chain, balance⟩ := h
  refine ⟨ids, slot :: stack, ⟨rfl, linked ▸ chain⟩, ?_⟩
  intro qid
  have moved := tally_update (PoolPc.releasing qid) s.pcs t .idle
  have total := balance qid
  simp only [PoolState.owners, PoolState.goto, mine, List.count_cons, PoolPc.releasing,
    beq_iff_eq] at *
  omega

theorem poolStep_inv {s s' : PoolState ι} {a : PoolAct ι} (h : s.Inv) (guard : NoAba s a)
    (hstep : poolStep s a = some s') : s'.Inv := by
  cases a with
  | acquire t =>
      cases hpc : s.pcs t <;> simp only [poolStep, hpc, Option.some.injEq, reduceCtorEq] at hstep
      subst hstep
      exact h.goto fun qid => by rw [hpc, PoolPc.releasing_afterLoad]; rfl
  | release t qid =>
      cases hpc : s.pcs t <;> simp only [poolStep, hpc, reduceCtorEq] at hstep
      split at hstep <;> cases hstep
      rename_i mem
      obtain ⟨ids, stack, chain, balance⟩ := h
      refine ⟨ids, stack, chain, ?_⟩
      intro q
      have moved := tally_update (PoolPc.releasing q) s.pcs t (.releaseLoad qid)
      have total := balance q
      have held := List.count_pos_iff.mpr mem
      simp only [PoolState.owners, PoolState.goto, hpc, PoolPc.releasing, List.count_erase,
        beq_iff_eq] at *
      split at moved
      · subst_vars
        simp only [if_true] at *
        omega
      · rename_i other
        simp only [if_neg other] at *
        omega
  | step t =>
      cases hpc : s.pcs t with
      | idle => simp [poolStep, hpc] at hstep
      | acquireNext slot =>
          simp only [poolStep, hpc, Option.some.injEq] at hstep
          subst hstep
          exact h.goto fun qid => by rw [hpc]; rfl
      | acquireCas slot next =>
          simp only [poolStep, hpc] at hstep
          split at hstep <;> cases hstep
          · rename_i top
            have fresh : s.pool.next slot = next := by
              simp only [NoAba, hpc] at guard
              exact guard top
            rw [← fresh]
            exact h.pop (fun qid => by rw [hpc]; rfl) top
          · exact h.goto fun qid => by rw [hpc, PoolPc.releasing_afterLoad]; rfl
      | releaseLoad qid =>
          simp only [poolStep, hpc, Option.some.injEq] at hstep
          subst hstep
          exact h.goto fun q => by rw [hpc]; rfl
      | releaseStore qid top =>
          simp only [poolStep, hpc, Option.some.injEq] at hstep
          subst hstep
          refine (h.setNext (owned_of_releasing (t := t) ?_) top).goto ?_
          · simp [hpc, PoolPc.releasing]
          · intro q
            simp only [hpc]
            rfl
      | releaseCas qid =>
          simp only [poolStep, hpc] at hstep
          split at hstep <;> cases hstep
          · rename_i linked
            exact h.push hpc linked
          · exact h.setNext (owned_of_releasing (t := t) (by simp [hpc, PoolPc.releasing])) _

/-- **The pool is sound up to ABA.** From a fresh pool, for every number of
threads and every interleaving in which no acquire installs a stale successor,
held ids and free ids partition `1 .. UNVME_VCQ_MAX - 1`. -/
theorem pool_partitioned {as : List (PoolAct ι)} {s : PoolState ι}
    (guard : Guarded poolStep NoAba (poolStart ι) as)
    (hrun : run poolStep (poolStart ι) as = some s) : s.Partitioned :=
  (run_inv (fun _ _ _ h g hs => poolStep_inv h g hs) poolStart_inv guard hrun).partitioned

/-- Two threads acquire and release around each other without ABA. -/
def contendedRun : List (PoolAct Thread) :=
  [.acquire .a, .step .a, .acquire .b, .step .b, .step .b, .step .a, .step .a, .step .a,
    .release .b 1, .step .b, .step .b, .step .b]

theorem pool_partitioned_contended :
    ∃ s, run poolStep (poolStart Thread) contendedRun = some s ∧ s.held = [2] ∧ s.Partitioned :=
  ⟨_, rfl, rfl, pool_partitioned
    (show Guarded poolStep NoAba (poolStart Thread) contendedRun by decide) rfl⟩

/-- Thread `a` loads slot 1 and its successor 2; `b` pops 1 and 2 and pushes
1 back; `a`'s exchange then puts the held slot 2 on top. -/
def abaRun : List (PoolAct Thread) :=
  [.acquire .a, .step .a, .acquire .b, .step .b, .step .b, .acquire .b, .step .b, .step .b,
    .release .b 1, .step .b, .step .b, .step .b, .step .a]

/-- The unguarded pool puts an id on the free stack while it is held. -/
theorem acquire_reuses_held_id :
    ¬ ∀ (as : List (PoolAct Thread)) (s : PoolState Thread),
      run poolStep (poolStart Thread) as = some s → s.Partitioned := by
  intro all
  have bad := all abaRun _ rfl
  exact bad.held_not_free 2 (by decide) (.here 2)

end Unvmed.Vcq
