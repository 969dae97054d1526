import Unvmed.Lib.Run
import Unvmed.Lib.Tally

/-!
The reaper thread of one interrupt vector, across interleavings (`lib/libunvmed.c`).

Threads that create and delete CQs take and drop the vector's references: the first reference
starts the reaper thread and the last one joins it. A signal handler may stop the thread at any
time. The reaper waits for its event descriptor, which counts: every interrupt and every wakeup is
read once. Each access to shared data is a step; what `th_lock` protects is a step together with
the lock.

* `thread_joined_once`: as long as the reaper is neither set up nor cleared while others are at it
  (`Orderly`), every thread that was started is joined once, none is joined before it was started,
  none is alive when the reaper is cleared, and no lock is destroyed in use.
* `stop_leaves_none`: when `unvmed_stop_reapers` is done with the vector, the thread is joined.
* `joiner_returns`: whoever joins the thread has woken it for good: after finitely many steps of
  its own the reaper has exited.
-/

namespace Unvmed.ReaperThread

open Lib

/-- The calls of `unvmed_reaper_join`. -/
inductive Caller where
  /-- `unvmed_free_irq` -/
  | free
  /-- `unvmed_stop_reapers` -/
  | stop
  deriving DecidableEq, Repr

/-- Where an agent is; each name says what comes next. -/
inductive Pc where
  | idle
  /-- `unvmed_init_irq`: `unvmed_init_irq_reaper`. -/
  | initSetup
  /-- `vfio_disable_irq` and `vfio_set_irq`. -/
  | initVfio
  /-- Lock `th_lock`. -/
  | initLock
  /-- `pthread_create`, under the lock. -/
  | initCreate
  /-- `running = true`, and unlock. -/
  | initRun
  /-- `unvmed_free_irq_reaper` on a failure. -/
  | initClear
  /-- `unvmed_free_irq`: drop the reference. -/
  | freeDec
  /-- `unvmed_reaper_join`: lock `th_lock` and look at `running`. -/
  | joinLock (k : Caller)
  /-- `eventfd_write` -/
  | joinWake (k : Caller)
  /-- `pthread_join`, `running = false`, and unlock. -/
  | joinWait (k : Caller)
  /-- `vfio_disable_irq` in `unvmed_free_irq`. -/
  | freeVfio
  /-- `unvmed_free_irq_reaper` -/
  | freeClear
  deriving DecidableEq, Repr

/-- Where the reaper thread is in its loop. -/
inductive Thread where
  /-- `unvmed_cq_wait_irq` -/
  | wait
  | checkStop
  | checkRefcnt
  | checkState
  | reap
  /-- The thread ended and can be joined. -/
  | exited
  deriving DecidableEq, Repr

/-- `struct unvme_cq_reaper`, its thread, and the agents. -/
structure State (ι : Type) where
  refcnt : ℤ := 0
  /-- The count of `efd`. -/
  efd : ℕ := 0
  running : Bool := false
  stop : Bool := false
  /-- The descriptors and the locks are set up. -/
  ready : Bool := false
  /-- The owner of `th_lock`. -/
  lock : Option ι := none
  /-- The thread `th` as long as it is not joined. -/
  thread : Option Thread := none
  /-- `u->state` is `UNVME_TEARDOWN`. -/
  teardown : Bool := false
  pcs : ι → Pc := fun _ => .idle
  /-- The references that callers of `unvmed_init_irq` own. -/
  refs : ℕ := 0
  /-- A reference that a failed `unvmed_init_irq_reaper` leaves. -/
  stray : ℕ := 0
  created : ℕ := 0
  joined : ℕ := 0
  /-- A thread was joined twice, or a lock was set up or destroyed in use. -/
  fault : Bool := false

inductive Act (ι : Type) where
  /-- `unvmed_init_irq`, `unvmed_free_irq` and `unvmed_stop_reapers` begin. -/
  | init (i : ι)
  | free (i : ι)
  | stop (i : ι)
  /-- The agent's next access; `ok` says whether it succeeds. -/
  | step (i : ι) (ok : Bool)
  /-- The device raises the interrupt. -/
  | irq
  /-- The state of the controller changes. -/
  | state (teardown : Bool)
  /-- The reaper's next access; `ok` says whether the wait succeeds. -/
  | reaper (ok : Bool)
  deriving DecidableEq, Repr

/-- The agent is at, or inside, a section of `th_lock`. -/
def Pc.usesLock : Pc → Bool
  | .initLock | .initCreate | .initRun | .joinLock _ | .joinWake _ | .joinWait _ => true
  | _ => false

section Step

variable {ι : Type} [DecidableEq ι] [Fintype ι]

def State.goto (s : State ι) (i : ι) (pc : Pc) : State ι :=
  { s with pcs := Function.update s.pcs i pc }

/-- Someone uses the lock. -/
def State.lockUsed (s : State ι) : Bool := decide (∃ j, (s.pcs j).usesLock)

/-- `unvmed_init_irq_reaper`. -/
def State.setup (s : State ι) : State ι :=
  { s with efd := 0, running := false, stop := false, ready := true, fault := s.fault || s.lockUsed }

/-- The end of `unvmed_free_irq_reaper`: the reaper is cleared. -/
def State.clear (s : State ι) : State ι :=
  { s with
    refcnt := 0, efd := 0, running := false, stop := false, ready := false
    fault := s.fault || s.lockUsed }

/-- What follows `unvmed_reaper_join`. -/
def Caller.resume : Caller → Pc
  | .free => .freeVfio
  | .stop => .idle

/-- The agent's next access. -/
def State.agent (s : State ι) (i : ι) (ok : Bool) : Option (State ι) :=
  match s.pcs i with
  | .idle => none
  | .initSetup =>
      if ok then some (s.setup.goto i .initVfio)
      else some ({ s with stray := s.stray + 1 }.goto i .idle)
  | .initVfio => some (s.goto i (if ok then .initLock else .initClear))
  | .initLock => if s.lock.isNone then some ({ s with lock := some i }.goto i .initCreate) else none
  | .initCreate =>
      if ok then some ({ s with thread := some .wait, created := s.created + 1 }.goto i .initRun)
      else some ({ s with lock := none }.goto i .initClear)
  | .initRun => some ({ s with running := true, lock := none, refs := s.refs + 1 }.goto i .idle)
  | .initClear => some (s.clear.goto i .idle)
  | .freeDec =>
      some ({ s with refcnt := s.refcnt - 1 }.goto i
        (if 0 < s.refcnt - 1 then .idle else .joinLock .free))
  | .joinLock k =>
      if s.lock.isSome then none
      else if s.running then some ({ s with lock := some i }.goto i (.joinWake k))
      else some (s.goto i k.resume)
  | .joinWake k => some ({ s with efd := s.efd + 1 }.goto i (.joinWait k))
  | .joinWait k =>
      match s.thread with
      | some .exited =>
          some ({ s with
            thread := none, joined := s.joined + 1, running := false, lock := none }.goto i k.resume)
      | none =>
          some ({ s with
            joined := s.joined + 1, running := false, lock := none, fault := true }.goto i k.resume)
      | _ => none
  | .freeVfio => some (s.goto i (if ok then .freeClear else .idle))
  | .freeClear => some (s.clear.goto i .idle)

/-- The reaper's next access. -/
def State.reaper (s : State ι) (ok : Bool) : Option (State ι) :=
  match s.thread with
  | some .wait =>
      if !ok then some { s with thread := some .exited }
      else if 0 < s.efd then some { s with efd := s.efd - 1, thread := some .checkStop }
      else none
  | some .checkStop => some { s with thread := some (if s.stop then .exited else .checkRefcnt) }
  | some .checkRefcnt =>
      some { s with thread := some (if s.refcnt = 0 then .exited else .checkState) }
  | some .checkState => some { s with thread := some (if s.teardown then .exited else .reap) }
  | some .reap => some { s with thread := some .wait }
  | some .exited | none => none

def step (s : State ι) : Act ι → Option (State ι)
  | .init i =>
      if s.pcs i ≠ .idle then none
      else if 1 < s.refcnt + 1 then some { s with refcnt := s.refcnt + 1, refs := s.refs + 1 }
      else some ({ s with refcnt := s.refcnt + 1 }.goto i .initSetup)
  | .free i =>
      if s.pcs i ≠ .idle then none
      else if s.refcnt = 0 then some s
      else some ({ s with refs := s.refs - 1 }.goto i .freeDec)
  | .stop i => if s.pcs i ≠ .idle then none else some ({ s with stop := true }.goto i (.joinLock .stop))
  | .step i ok => s.agent i ok
  | .irq => if s.ready then some { s with efd := s.efd + 1 } else none
  | .state teardown => some { s with teardown }
  | .reaper ok => s.reaper ok

end Step

/-! ### Condition -/

/-- The agent sets the reaper up, or takes it down after the last reference was dropped. -/
def Pc.changes : Pc → Bool
  | .initSetup | .initVfio | .initLock | .initCreate | .initRun | .initClear => true
  | .joinLock .free | .joinWake .free | .joinWait .free | .freeVfio | .freeClear => true
  | _ => false

/-- The agent is inside `unvmed_stop_reapers`. -/
def Pc.stops : Pc → Bool
  | .joinLock .stop | .joinWake .stop | .joinWait .stop => true
  | _ => false

/-- `unvmed_init_irq` does not begin while the reaper is set up or taken down, a reference that is
dropped was taken, and the reaper is not set up or cleared while `unvmed_stop_reapers` is at it. -/
def Orderly {ι : Type} (s : State ι) : Act ι → Prop
  | .init _ => ∀ j, (s.pcs j).changes = false
  | .free _ => 0 < s.refs
  | .step i _ => s.pcs i = .initSetup ∨ s.pcs i = .initClear ∨ s.pcs i = .freeClear →
      ∀ j, (s.pcs j).stops = false
  | _ => True

instance {ι : Type} [Fintype ι] (s : State ι) : DecidablePred (Orderly s)
  | .init _ => inferInstanceAs (Decidable (∀ _, _ = _))
  | .free _ => inferInstanceAs (Decidable (_ < _))
  | .step _ _ => inferInstanceAs (Decidable (_ → _))
  | .stop _ | .irq | .state _ | .reaper _ => .isTrue trivial

/-! ### Invariant -/

/-- The thread is on its way to its end, and needs no further wakeup. -/
def State.Leaving {ι : Type} (s : State ι) : Prop :=
  (s.stop = true ∨ s.refcnt = 0) ∧
    (0 < s.efd ∨ s.thread = some .checkStop ∨ (s.thread = some .checkRefcnt ∧ s.refcnt = 0) ∨
      s.thread = some .exited)

/-- What the caller of `unvmed_reaper_join` has done before. -/
def State.Asked {ι : Type} (s : State ι) : Caller → Prop
  | .free => s.refcnt = 0
  | .stop => s.stop = true

/-- What holds for an agent, by where it is. -/
def State.Fits {ι : Type} (s : State ι) : Pc → Prop
  | .idle | .freeDec => True
  | .initSetup | .initVfio | .initLock | .initCreate | .initClear =>
      s.refcnt = 1 ∧ s.thread = none ∧ s.running = false
  | .initRun => s.refcnt = 1 ∧ s.thread.isSome ∧ s.running = false
  | .joinLock k => s.Asked k
  | .joinWake k => s.Asked k ∧ s.running = true
  | .joinWait k => s.Asked k ∧ s.running = true ∧ s.Leaving
  | .freeVfio | .freeClear => s.refcnt = 0 ∧ s.thread = none ∧ s.running = false

/-- The agent owns `th_lock`. -/
def Pc.locks : Pc → Bool
  | .initCreate | .initRun | .joinWake _ | .joinWait _ => true
  | _ => false

/-- References that an agent is about to give or to drop. -/
def Pc.weight : Pc → ℕ
  | .initSetup | .initVfio | .initLock | .initCreate | .initRun | .initClear | .freeDec => 1
  | _ => 0

structure Inv {ι : Type} [Fintype ι] (s : State ι) : Prop where
  fault : s.fault = false
  /-- One agent at most changes the reaper. -/
  sole : ∀ i j, (s.pcs i).changes = true → (s.pcs j).changes = true → i = j
  owner : ∀ i, (s.pcs i).locks = true ↔ s.lock = some i
  count : s.refcnt = s.refs + tally Pc.weight s.pcs + s.stray
  fits : ∀ i, s.Fits (s.pcs i)
  /-- A thread is known to the others, except to the one who just started it. -/
  known : s.thread.isSome → s.running = true ∨ ∃ i, s.pcs i = .initRun
  alive : s.running = true → s.thread.isSome
  /-- A thread without references is about to be joined. -/
  referenced : s.thread.isSome → s.refcnt = 0 → ∃ i, (s.pcs i).changes = true
  /-- A reaper that is not set up has no thread. -/
  ready : s.thread.isSome → s.ready = true
  setUp : ∀ i, s.pcs i = .initCreate ∨ s.pcs i = .initLock ∨ s.pcs i = .initVfio → s.ready = true
  counted : s.created = s.joined + s.thread.toList.length

section Fits

variable {ι : Type} {s t : State ι} {q : Pc}

/-- The agent relies on nothing but what it asked for. -/
def Pc.calm : Pc → Bool
  | .idle | .freeDec | .joinLock _ => true
  | _ => false

theorem State.Fits.calm (fits : s.Fits q) (calm : q.calm = true)
    (refcnt : s.refcnt = 0 → t.refcnt = 0) (stop : s.stop = true → t.stop = true) : t.Fits q := by
  cases q with
  | idle => trivial
  | freeDec => trivial
  | joinLock k =>
      cases k with
      | free => exact refcnt fits
      | stop => exact stop fits
  | _ => cases calm

/-- Beside a thread, who does not own the lock is calm. -/
theorem State.Fits.calm_of_thread (fits : s.Fits q) (thread : s.thread.isSome)
    (unlocked : q.locks = false) : q.calm = true := by
  cases q with
  | idle | freeDec | joinLock k => rfl
  | initCreate | initRun | joinWake k | joinWait k => cases unlocked
  | initSetup | initVfio | initLock | initClear =>
      rw [fits.2.1] at thread
      cases thread
  | freeVfio | freeClear =>
      rw [fits.2.1] at thread
      cases thread

/-- Who neither changes the reaper nor owns the lock is calm. -/
theorem calm_of_apart (apart : q.changes = false) (unlocked : q.locks = false) : q.calm = true := by
  cases q with
  | idle | freeDec | joinLock k => rfl
  | initCreate | initRun | joinWake k | joinWait k => cases unlocked
  | _ => cases apart

/-- Who neither changes nor stops the reaper relies on nothing. -/
theorem State.Fits.of_far (apart : q.changes = false) (far : q.stops = false) : t.Fits q := by
  cases q with
  | idle => trivial
  | freeDec => trivial
  | joinLock k | joinWake k | joinWait k =>
      cases k with
      | free => exact absurd apart (by decide)
      | stop => exact absurd far (by decide)
  | _ => cases apart

/-- What an agent relies on, when nothing that it looks at changes; interrupts may come, and the
request to stop. -/
theorem State.Fits.same (fits : s.Fits q) (refcnt : t.refcnt = s.refcnt)
    (stop : s.stop = true → t.stop = true) (running : t.running = s.running) (thread : t.thread = s.thread) (efd : s.efd ≤ t.efd) :
    t.Fits q := by
  cases q with
  | joinWait k =>
      obtain ⟨asked, runs, why, how⟩ := fits
      rw [← running] at runs
      rw [← refcnt] at why
      refine ⟨?_, runs, why.imp_left stop, ?_⟩
      · cases k with
        | free => exact refcnt.trans asked
        | stop => exact stop asked
      · rw [thread, refcnt]
        rcases how with woken | rest
        · exact .inl (by omega)
        · exact .inr rest
  | joinLock k =>
      cases k with
      | free => exact refcnt.trans fits
      | stop => exact stop fits
  | joinWake k =>
      refine ⟨?_, running.trans fits.2⟩
      cases k with
      | free => exact refcnt.trans fits.1
      | stop => exact stop fits.1
  | idle => trivial
  | freeDec => trivial
  | _ =>
      simp only [State.Fits] at fits ⊢
      rw [refcnt, thread, running]
      exact fits

/-- The count may change while nobody changes the reaper. -/
theorem State.Fits.recount (fits : s.Fits q) (apart : q.changes = false)
    (seen : s.thread = some .checkRefcnt → s.refcnt ≠ 0) (stop : t.stop = s.stop)
    (running : t.running = s.running) (thread : t.thread = s.thread) (efd : t.efd = s.efd) :
    t.Fits q := by
  cases q with
  | idle => trivial
  | freeDec => trivial
  | joinLock k =>
      cases k with
      | free => exact absurd apart (by decide)
      | stop => exact stop.trans fits
  | joinWake k =>
      cases k with
      | free => exact absurd apart (by decide)
      | stop => exact ⟨stop.trans fits.1, running.trans fits.2⟩
  | joinWait k =>
      cases k with
      | free => exact absurd apart (by decide)
      | stop =>
          obtain ⟨asked, runs, -, how⟩ := fits
          refine ⟨stop.trans asked, running.trans runs, .inl (stop.trans asked), ?_⟩
          rw [thread, efd]
          rcases how with woken | looks | ⟨looks, zero⟩ | gone
          · exact .inl woken
          · exact .inr (.inl looks)
          · exact absurd zero (seen looks)
          · exact .inr (.inr (.inr gone))
  | _ => cases apart

end Fits

section Keep

variable {ι : Type} [Fintype ι] {s t : State ι} {i j : ι} {p : Pc}

theorem Inv.alone (inv : Inv s) (changes : (s.pcs i).changes = true) (ne : j ≠ i) :
    (s.pcs j).changes = false := by
  by_contra other
  exact ne (inv.sole j i (by simpa using other) changes)

theorem Inv.unlocked (inv : Inv s) (lock : s.lock = none ∨ s.lock = some i) (ne : j ≠ i) :
    (s.pcs j).locks = false := by
  by_contra other
  have mine := (inv.owner j).mp (by simpa using other)
  rcases lock with none_ | some_
  · cases none_.symm.trans mine
  · cases some_.symm.trans mine
    exact ne rfl

theorem Inv.one_ref (inv : Inv s) (hi : (s.pcs i).weight = 1) : 1 ≤ s.refcnt := by
  have one := le_tally Pc.weight s.pcs i
  have count := inv.count
  omega

/-- Nobody is at a section of the lock that is not calm, beside the agent that changes the
reaper. -/
theorem Inv.calm_alone (inv : Inv s) (changes : (s.pcs i).changes = true)
    (lock : s.lock = none ∨ s.lock = some i) (ne : j ≠ i) : (s.pcs j).calm = true :=
  calm_of_apart (inv.alone changes ne) (inv.unlocked lock ne)

theorem Inv.calm_thread (inv : Inv s) (thread : s.thread.isSome)
    (lock : s.lock = none ∨ s.lock = some i) (ne : j ≠ i) : (s.pcs j).calm = true :=
  (inv.fits j).calm_of_thread thread (inv.unlocked lock ne)

/-- A step of no agent. -/
theorem Inv.keep (inv : Inv s) (pcs : t.pcs = s.pcs) (fault : t.fault = s.fault)
    (lock : t.lock = s.lock) (refcnt : t.refcnt = s.refcnt) (refs : t.refs = s.refs)
    (stray : t.stray = s.stray) (running : t.running = s.running) (ready : t.ready = s.ready)
    (created : t.created = s.created) (joined : t.joined = s.joined)
    (thread : t.thread.toList.length = s.thread.toList.length)
    (fits : ∀ i, t.Fits (s.pcs i)) : Inv t := by
  have some_ : t.thread.isSome = s.thread.isSome := by
    cases ht : t.thread <;> cases hs : s.thread <;> simp [ht, hs] at thread ⊢
  constructor
  · exact fault.trans inv.fault
  · rw [pcs]
    exact inv.sole
  · rw [pcs, lock]
    exact inv.owner
  · rw [pcs, refcnt, refs, stray]
    exact inv.count
  · rw [pcs]
    exact fits
  · rw [pcs, some_, running]
    exact inv.known
  · rw [some_, running]
    exact inv.alive
  · rw [pcs, some_, refcnt]
    exact inv.referenced
  · rw [some_, ready]
    exact inv.ready
  · rw [pcs, ready]
    exact inv.setUp
  · rw [created, joined, thread]
    exact inv.counted

/-- Nobody uses the lock while the reaper is set up or cleared. -/
theorem Inv.lock_unused (inv : Inv s) (changes : (s.pcs i).changes = true)
    (self : (s.pcs i).usesLock = false) (quiet : ∀ j, (s.pcs j).stops = false) :
    s.lockUsed = false := by
  refine decide_eq_false ?_
  rintro ⟨j, uses⟩
  rcases eq_or_ne j i with rfl | ne
  · cases self.symm.trans uses
  · have apart := inv.alone changes ne
    have far := quiet j
    cases at_ : s.pcs j with
    | joinLock k | joinWake k | joinWait k =>
        rw [at_] at apart far
        cases k with
        | free => exact absurd apart (by decide)
        | stop => exact absurd far (by decide)
    | initLock | initCreate | initRun => rw [at_] at apart; cases apart
    | _ => rw [at_] at uses; cases uses

/-- Where the reaper has no thread. -/
theorem Inv.no_thread (inv : Inv s) (idle : s.running = false)
    (started : ∀ j, s.pcs j ≠ .initRun) : s.thread = none := by
  rw [← Option.not_isSome_iff_eq_none]
  intro some_
  rcases inv.known some_ with runs | ⟨j, here⟩
  · cases idle.symm.trans runs
  · exact started j here

variable [DecidableEq ι]

/-- What an agent's step has to keep. -/
theorem Inv.move (inv : Inv s) (pcs : t.pcs = Function.update s.pcs i p) (fault : t.fault = false)
    (sole : p.changes = true → ∀ j, j ≠ i → (s.pcs j).changes = false)
    (mine : p.locks = true ↔ t.lock = some i)
    (theirs : ∀ j, j ≠ i → (s.lock = some j ↔ t.lock = some j))
    (count : t.refcnt + (s.pcs i).weight + s.refs + s.stray =
      s.refcnt + p.weight + t.refs + t.stray)
    (self : t.Fits p) (others : ∀ j, j ≠ i → t.Fits (s.pcs j))
    (known : t.thread.isSome → t.running = true ∨ p = .initRun ∨ ∃ j, j ≠ i ∧ s.pcs j = .initRun)
    (alive : t.running = true → t.thread.isSome)
    (referenced : t.thread.isSome → t.refcnt = 0 →
      p.changes = true ∨ ∃ j, j ≠ i ∧ (s.pcs j).changes = true)
    (ready : t.thread.isSome → t.ready = true)
    (setUp : p = .initCreate ∨ p = .initLock ∨ p = .initVfio → t.ready = true)
    (kept : (∃ j, j ≠ i ∧ (s.pcs j).changes = true) → t.ready = s.ready)
    (counted : t.created = t.joined + t.thread.toList.length) : Inv t := by
  have self_pc : t.pcs i = p := by rw [pcs, Function.update_self]
  have other_pc (j : ι) (ne : j ≠ i) : t.pcs j = s.pcs j := by rw [pcs, Function.update_of_ne ne]
  refine ⟨fault, ?_, ?_, ?_, ?_, ?_, alive, ?_, ready, ?_, counted⟩
  · intro a b ha hb
    rcases eq_or_ne a i with rfl | nea <;> rcases eq_or_ne b a with rfl | ne
    · rfl
    · rw [self_pc] at ha
      rw [other_pc b ne, sole ha b ne] at hb
      cases hb
    · rfl
    · rcases eq_or_ne b i with rfl | neb
      · rw [self_pc] at hb
        rw [other_pc a nea, sole hb a nea] at ha
        cases ha
      · rw [other_pc a nea] at ha
        rw [other_pc b neb] at hb
        exact inv.sole a b ha hb
  · intro j
    rcases eq_or_ne j i with rfl | ne
    · rw [self_pc, mine]
    · rw [other_pc j ne, inv.owner j, theirs j ne]
  · have moved := tally_update Pc.weight s.pcs i p
    rw [← pcs] at moved
    have before := inv.count
    omega
  · intro j
    rcases eq_or_ne j i with rfl | ne
    · rw [self_pc]
      exact self
    · rw [other_pc j ne]
      exact others j ne
  · intro some_
    rcases known some_ with running | rfl | ⟨j, ne, here⟩
    · exact .inl running
    · exact .inr ⟨i, self_pc⟩
    · exact .inr ⟨j, (other_pc j ne).trans here⟩
  · intro some_ zero
    rcases referenced some_ zero with here | ⟨j, ne, there⟩
    · exact ⟨i, self_pc ▸ here⟩
    · exact ⟨j, (other_pc j ne).symm ▸ there⟩
  · intro j at_
    rcases eq_or_ne j i with rfl | ne
    · rw [self_pc] at at_
      exact setUp at_
    · rw [other_pc j ne] at at_
      rw [kept ⟨j, ne, by rcases at_ with h | h | h <;> rw [h] <;> rfl⟩]
      exact inv.setUp j at_

/-- Two agents with a reference each. -/
theorem Inv.two_refs (inv : Inv s) (ne : j ≠ i) (hi : (s.pcs i).weight = 1)
    (hj : (s.pcs j).weight = 1) : 2 ≤ s.refcnt := by
  have two : 2 ≤ tally Pc.weight s.pcs := by
    by_contra few
    have none_ := tally_sole (by omega) hi ne
    omega
  have count := inv.count
  omega

/-! ### Each step -/

theorem Inv.setup (inv : Inv s) (at_ : s.pcs i = .initSetup) (quiet : ∀ j, (s.pcs j).stops = false) :
    Inv (s.setup.goto i .initVfio) := by
  have changes : (s.pcs i).changes = true := by rw [at_]; rfl
  have fits : s.Fits .initSetup := at_ ▸ inv.fits i
  obtain ⟨one, thread, -⟩ := fits
  have unused := inv.lock_unused changes (by rw [at_]; rfl) quiet
  have none_ : s.lock ≠ some i := fun mine => by
    have locks := (inv.owner i).mpr mine
    rw [at_] at locks
    cases locks
  refine inv.move (p := .initVfio) rfl ?_ ?_ ?_ ?_ ?_ ?_ ?_ ?_ ?_ ?_ ?_ ?_ ?_ ?_
  · simp [State.setup, State.goto, inv.fault, unused]
  · exact fun _ j ne => inv.alone changes ne
  · simpa [State.setup, State.goto, Pc.locks] using none_
  · exact fun j ne => Iff.rfl
  · simp [State.setup, State.goto, at_, Pc.weight]
  · exact ⟨one, thread, rfl⟩
  · exact fun j ne => State.Fits.of_far (inv.alone changes ne) (quiet j)
  · simp [State.setup, State.goto, thread]
  · simp [State.setup, State.goto]
  · simp [State.setup, State.goto, thread]
  · simp [State.setup, State.goto]
  · exact fun _ => rfl
  · rintro ⟨j, ne, busy⟩
    cases (inv.alone changes ne).symm.trans busy
  · exact inv.counted

/-- The end of a set-up that failed, or of the last teardown. -/
theorem Inv.clear (inv : Inv s) (at_ : s.pcs i = .initClear ∨ s.pcs i = .freeClear)
    (quiet : ∀ j, (s.pcs j).stops = false) : Inv (s.clear.goto i .idle) := by
  have changes : (s.pcs i).changes = true := by rcases at_ with h | h <;> rw [h] <;> rfl
  have self : (s.pcs i).usesLock = false ∧ (s.pcs i).locks = false := by
    rcases at_ with h | h <;> rw [h] <;> exact ⟨rfl, rfl⟩
  have unused := inv.lock_unused changes self.1 quiet
  have none_ : s.lock ≠ some i := fun mine => by
    cases self.2.symm.trans ((inv.owner i).mpr mine)
  have thread : s.thread = none ∧ s.refcnt = (s.pcs i).weight := by
    have fits := inv.fits i
    rcases at_ with h | h <;> rw [h] at fits ⊢
    · exact ⟨fits.2.1, fits.1⟩
    · exact ⟨fits.2.1, fits.1⟩
  refine inv.move (p := .idle) rfl ?_ ?_ ?_ ?_ ?_ ?_ ?_ ?_ ?_ ?_ ?_ ?_ ?_ ?_
  · simp [State.clear, State.goto, inv.fault, unused]
  · nofun
  · simpa [State.clear, State.goto, Pc.locks] using none_
  · exact fun j ne => Iff.rfl
  · simp [State.clear, State.goto, thread.2, Pc.weight]
  · trivial
  · exact fun j ne => State.Fits.of_far (inv.alone changes ne) (quiet j)
  · simp [State.clear, State.goto, thread.1]
  · simp [State.clear, State.goto]
  · simp [State.clear, State.goto, thread.1]
  · simp [State.clear, State.goto, thread.1]
  · nofun
  · rintro ⟨j, ne, busy⟩
    cases (inv.alone changes ne).symm.trans busy
  · exact inv.counted

/-- An agent goes on, and beside the lock and the count of `efd` nothing changes. -/
theorem Inv.goto (inv : Inv s) (lock : Option ι) (efd : ℕ) (more : s.efd ≤ efd)
    (weight : (s.pcs i).weight = p.weight) (sole : p.changes = true → (s.pcs i).changes = true)
    (mine : p.locks = true ↔ lock = some i)
    (theirs : ∀ j, j ≠ i → (s.lock = some j ↔ lock = some j))
    (self : ({ s with efd } : State ι).Fits p) (started : s.pcs i ≠ .initRun)
    (left : (s.pcs i).changes = true → p.changes = true ∨ s.thread = none)
    (setUp : p = .initCreate ∨ p = .initLock ∨ p = .initVfio → s.ready = true) :
    Inv ({ s with lock, efd }.goto i p) := by
  refine inv.move (p := p) rfl inv.fault ?_ mine theirs ?_ ?_ ?_ ?_ inv.alive ?_ inv.ready setUp
    (fun _ => rfl) inv.counted
  · exact fun changes j ne => inv.alone (sole changes) ne
  · simp [State.goto, weight]
  · exact State.Fits.same self rfl id rfl rfl (le_refl efd)
  · exact fun j ne => (inv.fits j).same rfl id rfl rfl more
  · intro some_
    rcases inv.known some_ with runs | ⟨j, here⟩
    · exact .inl runs
    · refine .inr (.inr ⟨j, ?_, here⟩)
      rintro rfl
      exact started here
  · intro some_ zero
    obtain ⟨j, busy⟩ := inv.referenced some_ zero
    rcases eq_or_ne j i with rfl | ne
    · refine .inl ((left busy).resolve_right ?_)
      exact Option.isSome_iff_ne_none.mp some_
    · exact .inr ⟨j, ne, busy⟩

/-- `pthread_create`. -/
theorem Inv.create (inv : Inv s) (at_ : s.pcs i = .initCreate) :
    Inv ({ s with thread := some .wait, created := s.created + 1 }.goto i .initRun) := by
  have changes : (s.pcs i).changes = true := by rw [at_]; rfl
  obtain ⟨one, thread, idle⟩ : s.Fits .initCreate := at_ ▸ inv.fits i
  have lock := (inv.owner i).mp (by rw [at_]; rfl)
  have ready := inv.setUp i (.inl at_)
  refine inv.move (p := .initRun) rfl inv.fault ?_ ?_ ?_ ?_ ?_ ?_ ?_ ?_ ?_ ?_ ?_ ?_ ?_
  · exact fun _ j ne => inv.alone changes ne
  · simp [State.goto, Pc.locks, lock]
  · exact fun j ne => Iff.rfl
  · simp [State.goto, at_, Pc.weight]
  · exact ⟨one, rfl, idle⟩
  · exact fun j ne => (inv.fits j).calm (inv.calm_alone changes (.inr lock) ne) id id
  · exact fun _ => .inr (.inl rfl)
  · simp [State.goto]
  · exact fun _ _ => .inl rfl
  · exact fun _ => ready
  · nofun
  · exact fun _ => rfl
  · simp [State.goto, inv.counted, thread]

/-- `running = true`. -/
theorem Inv.run (inv : Inv s) (at_ : s.pcs i = .initRun) :
    Inv ({ s with running := true, lock := none, refs := s.refs + 1 }.goto i .idle) := by
  have changes : (s.pcs i).changes = true := by rw [at_]; rfl
  obtain ⟨one, thread, -⟩ : s.Fits .initRun := at_ ▸ inv.fits i
  have lock := (inv.owner i).mp (by rw [at_]; rfl)
  refine inv.move (p := .idle) rfl inv.fault ?_ ?_ ?_ ?_ ?_ ?_ ?_ ?_ ?_ inv.ready ?_ ?_ inv.counted
  · nofun
  · simp [State.goto, Pc.locks]
  · intro j ne
    simp [State.goto, lock, ne.symm]
  · simp only [State.goto, at_, Pc.weight]
    omega
  · trivial
  · exact fun j ne => (inv.fits j).calm (inv.calm_alone changes (.inr lock) ne) id id
  · exact fun _ => .inl rfl
  · exact fun _ => thread
  · intro _ zero
    have still : s.refcnt = 0 := zero
    omega
  · nofun
  · exact fun _ => rfl

/-- `pthread_join`, and `running = false`. -/
theorem Inv.join (inv : Inv s) {k : Caller} (at_ : s.pcs i = .joinWait k)
    (exited : s.thread = some .exited) : Inv ({ s with
      thread := none, joined := s.joined + 1, running := false, lock := none }.goto i k.resume) := by
  obtain ⟨asked, -, -⟩ : s.Fits (.joinWait k) := at_ ▸ inv.fits i
  have lock := (inv.owner i).mp (by rw [at_]; rfl)
  refine inv.move (p := k.resume) rfl inv.fault ?_ ?_ ?_ ?_ ?_ ?_ ?_ ?_ ?_ ?_ ?_ ?_ ?_
  · intro changes j ne
    cases k with
    | free => exact inv.alone (by rw [at_]; rfl) ne
    | stop => cases changes
  · cases k <;> simp [State.goto, Caller.resume, Pc.locks]
  · intro j ne
    simp [State.goto, lock, ne.symm]
  · cases k <;> simp [State.goto, at_, Caller.resume, Pc.weight]
  · cases k with
    | free => exact ⟨asked, rfl, rfl⟩
    | stop => trivial
  · intro j ne
    exact (inv.fits j).calm (inv.calm_thread (by rw [exited]; rfl) (.inr lock) ne) id id
  · nofun
  · nofun
  · nofun
  · nofun
  · cases k <;> simp [Caller.resume]
  · exact fun _ => rfl
  · simp [State.goto, inv.counted, exited]

/-- While one agent is about to drop a reference, nobody changes the reaper. -/
theorem Inv.undisturbed (inv : Inv s) (at_ : s.pcs i = .freeDec) (j : ι) :
    (s.pcs j).changes = false := by
  have mine : (s.pcs i).weight = 1 := by rw [at_]; rfl
  rcases eq_or_ne j i with rfl | ne
  · rw [at_]
    rfl
  · have one := inv.one_ref mine
    have two := fun weight => inv.two_refs ne mine weight
    have fits := inv.fits j
    cases here : s.pcs j with
    | idle | freeDec => rfl
    | initSetup | initVfio | initLock | initCreate | initClear | initRun =>
        rw [here] at fits two
        have several := two rfl
        have single : s.refcnt = 1 := fits.1
        omega
    | freeVfio | freeClear =>
        rw [here] at fits
        have zero : s.refcnt = 0 := fits.1
        omega
    | joinLock k | joinWake k | joinWait k =>
        cases k with
        | stop => rfl
        | free =>
            rw [here] at fits
            have zero : s.refcnt = 0 := by first | exact fits | exact fits.1
            omega

/-- `atomic_dec_fetch`. -/
theorem Inv.dec (inv : Inv s) (at_ : s.pcs i = .freeDec) :
    Inv ({ s with refcnt := s.refcnt - 1 }.goto i
      (if 0 < s.refcnt - 1 then .idle else .joinLock .free)) := by
  have one := inv.one_ref (i := i) (by rw [at_]; rfl)
  have lock : s.lock ≠ some i := fun mine => by
    have locks := (inv.owner i).mpr mine
    rw [at_] at locks
    cases locks
  have others (j : ι) : ({ s with refcnt := s.refcnt - 1 } : State ι).Fits (s.pcs j) :=
    (inv.fits j).recount (inv.undisturbed at_ j) (fun _ zero => by omega) rfl rfl rfl rfl
  have known (p : Pc) (some_ : s.thread.isSome) :
      s.running = true ∨ p = .initRun ∨ ∃ j, j ≠ i ∧ s.pcs j = .initRun := by
    rcases inv.known some_ with runs | ⟨j, here⟩
    · exact .inl runs
    · have apart := inv.undisturbed at_ j
      rw [here] at apart
      cases apart
  split
  · refine inv.move (p := .idle) rfl inv.fault nofun ?_ ?_ ?_ trivial ?_ (known _) inv.alive ?_
      inv.ready (by simp) (fun _ => rfl) inv.counted
    · simpa [Pc.locks, State.goto] using lock
    · exact fun j ne => Iff.rfl
    · simp only [State.goto, at_, Pc.weight]
      omega
    · exact fun j ne => State.Fits.same (others j) rfl id rfl rfl (le_refl _)
    · intro _ zero
      have still : s.refcnt - 1 = 0 := zero
      omega
  · have last : s.refcnt - 1 = 0 := by omega
    refine inv.move (p := .joinLock .free) rfl inv.fault ?_ ?_ ?_ ?_ last ?_ (known _) inv.alive ?_
      inv.ready (by simp) (fun _ => rfl) inv.counted
    · exact fun _ j ne => inv.undisturbed at_ j
    · simpa [Pc.locks, State.goto] using lock
    · exact fun j ne => Iff.rfl
    · simp only [State.goto, at_, Pc.weight]
      omega
    · exact fun j ne => State.Fits.same (others j) rfl id rfl rfl (le_refl _)
    · exact fun _ _ => .inl rfl

/-- `unvmed_init_irq_reaper` fails, and leaves its reference. -/
theorem Inv.stray (inv : Inv s) (at_ : s.pcs i = .initSetup) :
    Inv ({ s with stray := s.stray + 1 }.goto i .idle) := by
  obtain ⟨-, thread, idle⟩ : s.Fits .initSetup := at_ ▸ inv.fits i
  have lock : s.lock ≠ some i := fun mine => by
    have locks := (inv.owner i).mpr mine
    rw [at_] at locks
    cases locks
  refine inv.move (p := .idle) rfl inv.fault nofun ?_ ?_ ?_ trivial ?_ ?_ inv.alive ?_ inv.ready
    (by simp) (fun _ => rfl) inv.counted
  · simpa [Pc.locks, State.goto] using lock
  · exact fun j ne => Iff.rfl
  · simp only [State.goto, at_, Pc.weight]
    omega
  · exact fun j ne => (inv.fits j).same rfl id rfl rfl (le_refl _)
  · simp [State.goto, thread]
  · simp [State.goto, thread]

/-- `unvmed_reaper_join` finds the thread running. -/
theorem Inv.lockJoin (inv : Inv s) {k : Caller} (at_ : s.pcs i = .joinLock k)
    (open_ : s.lock = none) (runs : s.running = true) :
    Inv ({ s with lock := some i }.goto i (.joinWake k)) := by
  have asked : s.Fits (.joinLock k) := at_ ▸ inv.fits i
  refine inv.goto (some i) s.efd le_rfl (by rw [at_]; rfl) ?_ (by simp [Pc.locks]) ?_
    ⟨?_, runs⟩ (by simp [at_]) ?_ (by simp)
  · cases k <;> simp [at_, Pc.changes]
  · intro j ne
    simp [open_, ne.symm]
  · cases k <;> exact asked
  · cases k <;> simp [at_, Pc.changes]

/-- `unvmed_reaper_join` finds no thread. -/
theorem Inv.skipJoin (inv : Inv s) {k : Caller} (at_ : s.pcs i = .joinLock k)
    (open_ : s.lock = none) (idle : s.running = false) : Inv (s.goto i k.resume) := by
  have asked : s.Fits (.joinLock k) := at_ ▸ inv.fits i
  have thread := inv.no_thread idle fun j here => by
    have locks := (inv.owner j).mp (by rw [here]; rfl)
    cases open_.symm.trans locks
  refine inv.goto s.lock s.efd le_rfl ?_ ?_ ?_ (fun _ _ => Iff.rfl) ?_ (by simp [at_])
    (fun _ => .inr thread) ?_
  · cases k <;> rw [at_] <;> rfl
  · cases k <;> simp [at_, Caller.resume, Pc.changes]
  · cases k <;> simp [Caller.resume, Pc.locks, open_]
  · cases k with
    | free => exact ⟨asked, thread, idle⟩
    | stop => trivial
  · cases k <;> simp [Caller.resume]

/-- The wakeup: from here on the thread is on its way to its end. -/
theorem Inv.wake (inv : Inv s) {k : Caller} (at_ : s.pcs i = .joinWake k) :
    Inv ({ s with efd := s.efd + 1 }.goto i (.joinWait k)) := by
  obtain ⟨asked, runs⟩ : s.Fits (.joinWake k) := at_ ▸ inv.fits i
  have mine := (inv.owner i).mp (by rw [at_]; rfl)
  refine inv.goto s.lock (s.efd + 1) (Nat.le_succ _) (by rw [at_]; rfl) ?_
    (by simpa [Pc.locks] using mine) (fun _ _ => Iff.rfl) ⟨?_, runs, ?_, .inl (Nat.succ_pos _)⟩
    (by simp [at_]) ?_ (by simp)
  · cases k <;> simp [at_, Pc.changes]
  · cases k <;> exact asked
  · cases k with
    | free => exact .inr asked
    | stop => exact .inl asked
  · cases k <;> simp [at_, Pc.changes]

/-- An access of an agent. -/
theorem Inv.agent (inv : Inv s) {ok : Bool} (orderly : Orderly s (.step i ok))
    (went : s.agent i ok = some t) : Inv t := by
  have lock (off : (s.pcs i).locks = false) : s.lock ≠ some i := fun mine => by
    cases off.symm.trans ((inv.owner i).mpr mine)
  have fits := inv.fits i
  unfold State.agent at went
  cases at_ : s.pcs i with
  | idle => simp [at_] at went
  | initSetup =>
      rw [at_] at fits lock
      simp only [at_] at went
      have quiet := orderly (.inl at_)
      split at went <;> cases went
      · exact inv.setup at_ quiet
      · exact inv.stray at_
  | initVfio =>
      rw [at_] at fits lock
      simp only [at_] at went
      have ready := inv.setUp i (.inr (.inr at_))
      split at went <;> cases went
      · exact inv.goto s.lock s.efd le_rfl (by rw [at_]; rfl) (fun _ => by rw [at_]; rfl)
          (by simpa [Pc.locks] using lock) (fun _ _ => Iff.rfl) fits (by simp [at_])
          (fun _ => .inl rfl) (fun _ => ready)
      · exact inv.goto s.lock s.efd le_rfl (by rw [at_]; rfl) (fun _ => by rw [at_]; rfl)
          (by simpa [Pc.locks] using lock) (fun _ _ => Iff.rfl) fits (by simp [at_])
          (fun _ => .inl rfl) (fun _ => ready)
  | initLock =>
      rw [at_] at fits
      simp only [at_] at went
      have ready := inv.setUp i (.inr (.inl at_))
      split at went
      · rename_i open_
        cases went
        have none_ : s.lock = none := Option.isNone_iff_eq_none.mp open_
        refine inv.goto (some i) s.efd le_rfl (by rw [at_]; rfl) (fun _ => by rw [at_]; rfl)
          (by simp [Pc.locks]) ?_ fits (by simp [at_]) (fun _ => .inl rfl) (fun _ => ready)
        intro j ne
        simp [none_, ne.symm]
      · cases went
  | initCreate =>
      rw [at_] at fits
      simp only [at_] at went
      have mine := (inv.owner i).mp (by rw [at_]; rfl)
      split at went <;> cases went
      · exact inv.create at_
      · refine inv.goto none s.efd le_rfl (by rw [at_]; rfl) (fun _ => by rw [at_]; rfl)
          (by simp [Pc.locks]) ?_ fits (by simp [at_]) (fun _ => .inl rfl)
          (fun _ => inv.setUp i (.inl at_))
        intro j ne
        simp [mine, ne.symm]
  | initRun =>
      simp only [at_] at went
      cases went
      exact inv.run at_
  | initClear =>
      simp only [at_] at went
      cases went
      exact inv.clear (.inl at_) (orderly (.inr (.inl at_)))
  | freeDec =>
      simp only [at_] at went
      cases went
      exact inv.dec at_
  | joinLock k =>
      simp only [at_] at went
      split at went
      · cases went
      · rename_i held
        have open_ : s.lock = none := Option.not_isSome_iff_eq_none.mp held
        split at went <;> cases went
        · rename_i runs
          exact inv.lockJoin at_ open_ runs
        · rename_i idle
          exact inv.skipJoin at_ open_ (by simpa using idle)
  | joinWake k =>
      simp only [at_] at went
      cases went
      exact inv.wake at_
  | joinWait k =>
      rw [at_] at fits
      simp only [at_] at went
      split at went
      · cases went
        rename_i exited
        exact inv.join at_ exited
      · rename_i gone
        have there := inv.alive fits.2.1
        rw [gone] at there
        cases there
      · cases went
  | freeVfio =>
      rw [at_] at fits lock
      simp only [at_] at went
      split at went <;> cases went
      · exact inv.goto s.lock s.efd le_rfl (by rw [at_]; rfl) (fun _ => by rw [at_]; rfl)
          (by simpa [Pc.locks] using lock) (fun _ _ => Iff.rfl) fits (by simp [at_])
          (fun _ => .inl rfl) (by simp)
      · exact inv.goto s.lock s.efd le_rfl (by rw [at_]; rfl) nofun
          (by simpa [Pc.locks] using lock) (fun _ _ => Iff.rfl) trivial (by simp [at_])
          (fun _ => .inr fits.2.1) (by simp)
  | freeClear =>
      simp only [at_] at went
      cases went
      exact inv.clear (.inr at_) (orderly (.inr (.inr at_)))

omit [Fintype ι] [DecidableEq ι] in
/-- What an agent relies on, while the thread goes on as it must. -/
theorem State.Fits.thread {x : Thread} {efd : ℕ} {q : Pc} (fits : s.Fits q)
    (alive : s.thread.isSome)
    (leaves : s.Leaving → ({ s with thread := some x, efd } : State ι).Leaving) :
    ({ s with thread := some x, efd } : State ι).Fits q := by
  cases q with
  | idle => trivial
  | freeDec => trivial
  | joinLock k => cases k <;> exact fits
  | joinWake k => exact ⟨by cases k <;> exact fits.1, fits.2⟩
  | joinWait k => exact ⟨by cases k <;> exact fits.1, fits.2.1, leaves fits.2.2⟩
  | initRun => exact ⟨fits.1, rfl, fits.2.2⟩
  | initSetup | initVfio | initLock | initCreate | initClear | freeVfio | freeClear =>
      rw [fits.2.1] at alive
      cases alive

omit [DecidableEq ι] in
/-- An access of the reaper. -/
theorem Inv.reaper (inv : Inv s) {ok : Bool} (went : s.reaper ok = some t) : Inv t := by
  have moved (x : Thread) (efd : ℕ) (alive : s.thread.isSome)
      (leaves : s.Leaving → ({ s with thread := some x, efd } : State ι).Leaving) :
      Inv ({ s with thread := some x, efd } : State ι) := by
    refine inv.keep rfl rfl rfl rfl rfl rfl rfl rfl rfl rfl ?_ fun j => ?_
    · obtain ⟨y, here⟩ := Option.isSome_iff_exists.mp alive
      simp [here]
    · exact (inv.fits j).thread alive leaves
  have exits (alive : s.thread.isSome) : Inv ({ s with thread := some .exited } : State ι) :=
    moved .exited s.efd alive fun leaving => ⟨leaving.1, .inr (.inr (.inr rfl))⟩
  unfold State.reaper at went
  cases at_ : s.thread with
  | none => simp [at_] at went
  | some x =>
      have alive : s.thread.isSome := by rw [at_]; rfl
      cases x with
      | wait =>
          simp only [at_] at went
          split at went
          · cases went
            exact exits alive
          · split at went <;> cases went
            exact moved .checkStop _ alive fun leaving => ⟨leaving.1, .inr (.inl rfl)⟩
      | checkStop =>
          simp only [at_] at went
          cases went
          split
          · exact exits alive
          · rename_i off
            refine moved .checkRefcnt s.efd alive fun ⟨why, how⟩ => ⟨why, ?_⟩
            have zero : s.refcnt = 0 := why.resolve_left off
            exact .inr (.inr (.inl ⟨rfl, zero⟩))
      | checkRefcnt =>
          simp only [at_] at went
          cases went
          split
          · exact exits alive
          · rename_i some_
            refine moved .checkState s.efd alive fun ⟨why, how⟩ => ⟨why, ?_⟩
            rw [at_] at how
            simpa [some_] using how
      | checkState =>
          simp only [at_] at went
          cases went
          split
          · exact exits alive
          · refine moved .reap s.efd alive fun ⟨why, how⟩ => ⟨why, ?_⟩
            rw [at_] at how
            simpa using how
      | reap =>
          simp only [at_] at went
          cases went
          refine moved .wait s.efd alive fun ⟨why, how⟩ => ⟨why, ?_⟩
          rw [at_] at how
          simpa using how
      | exited => simp [at_] at went

/-- A call begins. -/
theorem Inv.begin (inv : Inv s) (idle : s.pcs i = .idle) (refcnt : ℤ) (refs : ℕ) (stop : Bool)
    (sole : p.changes = true → ∀ j, (s.pcs j).changes = false)
    (unlocked : p.locks = false) (count : refcnt + s.refs = s.refcnt + p.weight + refs)
    (self : ({ s with refcnt, refs, stop } : State ι).Fits p)
    (others : ∀ j, ({ s with refcnt, refs, stop } : State ι).Fits (s.pcs j))
    (referenced : s.thread.isSome → refcnt = 0 → s.refcnt = 0)
    (fresh : p ≠ .initCreate ∧ p ≠ .initLock ∧ p ≠ .initVfio) :
    Inv ({ s with refcnt, refs, stop }.goto i p) := by
  have lock : s.lock ≠ some i := fun mine => by
    have locks := (inv.owner i).mpr mine
    rw [idle] at locks
    cases locks
  have away {j : ι} (h : s.pcs j ≠ .idle) : j ≠ i := by
    rintro rfl
    exact h idle
  refine inv.move (p := p) rfl inv.fault (fun changes j _ => sole changes j) ?_
    (fun _ _ => Iff.rfl) ?_ ?_ ?_ ?_ inv.alive ?_ inv.ready ?_ (fun _ => rfl) inv.counted
  · simpa [unlocked, State.goto] using lock
  · have none_ : Pc.idle.weight = 0 := rfl
    simp only [State.goto, idle]
    omega
  · exact State.Fits.same self rfl id rfl rfl le_rfl
  · exact fun j _ => State.Fits.same (others j) rfl id rfl rfl le_rfl
  · intro some_
    rcases inv.known some_ with runs | ⟨j, here⟩
    · exact .inl runs
    · exact .inr (.inr ⟨j, away (by simp [here]), here⟩)
  · intro some_ zero
    obtain ⟨j, busy⟩ := inv.referenced some_ (referenced some_ zero)
    refine .inr ⟨j, away ?_, busy⟩
    intro here
    rw [here] at busy
    cases busy
  · rintro (h | h | h)
    · exact absurd h fresh.1
    · exact absurd h fresh.2.1
    · exact absurd h fresh.2.2

/-- One step. -/
theorem Inv.step (inv : Inv s) {a : Act ι} (orderly : Orderly s a) (went : step s a = some t) :
    Inv t := by
  cases a with
  | init i =>
      simp only [ReaperThread.step] at went
      have seen : s.thread = some .checkRefcnt → s.refcnt ≠ 0 := by
        intro at_ zero
        obtain ⟨j, busy⟩ := inv.referenced (by rw [at_]; rfl) zero
        cases (orderly j).symm.trans busy
      have others (j : ι) (refs : ℕ) :
          ({ s with refcnt := s.refcnt + 1, refs := refs } : State ι).Fits (s.pcs j) :=
        (inv.fits j).recount (orderly j) seen rfl rfl rfl rfl
      have positive : s.refcnt + 1 ≠ 0 := by
        have count := inv.count
        omega
      split at went
      · cases went
      · rename_i idle
        have idle : s.pcs i = .idle := by simpa using idle
        split at went <;> cases went
        · have stays : Function.update s.pcs i .idle = s.pcs := by
            rw [← idle, Function.update_eq_self]
          have kept := inv.begin idle (p := .idle) (s.refcnt + 1) (s.refs + 1) s.stop nofun rfl
            (by simp only [Pc.weight]; omega) trivial (fun j => others j _)
            (fun _ zero => absurd zero positive) (by simp)
          simp only [State.goto, stays] at kept
          exact kept
        · rename_i first
          have none_ : s.refcnt = 0 := by
            have count := inv.count
            omega
          have thread : s.thread = none := by
            rw [← Option.not_isSome_iff_eq_none]
            intro some_
            obtain ⟨j, busy⟩ := inv.referenced some_ none_
            cases (orderly j).symm.trans busy
          have running : s.running = false := by
            by_contra runs
            have some_ := inv.alive (by simpa using runs)
            rw [thread] at some_
            cases some_
          exact inv.begin idle (p := .initSetup) (s.refcnt + 1) s.refs s.stop (fun _ => orderly)
            rfl (by simp only [Pc.weight]; omega) ⟨by simp [none_], thread, running⟩
            (fun j => others j _) (fun _ zero => absurd zero positive) (by simp)
  | free i =>
      have owned : 0 < s.refs := orderly
      simp only [ReaperThread.step] at went
      split at went
      · cases went
      · rename_i idle
        have idle : s.pcs i = .idle := by simpa using idle
        split at went <;> cases went
        · exact inv
        · exact inv.begin idle (p := .freeDec) s.refcnt (s.refs - 1) s.stop nofun rfl
            (by simp only [Pc.weight]; omega) trivial
            (fun j => (inv.fits j).same rfl id rfl rfl le_rfl) (fun _ => id) (by simp)
  | stop i =>
      simp only [ReaperThread.step] at went
      split at went
      · cases went
      · rename_i idle
        have idle : s.pcs i = .idle := by simpa using idle
        cases went
        exact inv.begin idle (p := .joinLock .stop) s.refcnt s.refs true nofun rfl
          (by simp only [Pc.weight]; omega) rfl
          (fun j => (inv.fits j).same rfl (fun _ => rfl) rfl rfl le_rfl) (fun _ => id) (by simp)
  | step i ok => exact inv.agent orderly went
  | irq =>
      simp only [ReaperThread.step] at went
      split at went <;> cases went
      exact inv.keep rfl rfl rfl rfl rfl rfl rfl rfl rfl rfl rfl
        fun j => (inv.fits j).same rfl id rfl rfl (Nat.le_succ _)
  | state teardown =>
      cases went
      exact inv.keep rfl rfl rfl rfl rfl rfl rfl rfl rfl rfl rfl
        fun j => (inv.fits j).same rfl id rfl rfl le_rfl
  | reaper ok => exact inv.reaper went

end Keep

/-! ### Runs -/

section Runs

variable {ι : Type} [Fintype ι]

theorem inv_start : Inv ({} : State ι) := by
  refine ⟨rfl, ?_, ?_, ?_, ?_, ?_, ?_, ?_, ?_, ?_, rfl⟩
  · nofun
  · simp [Pc.locks]
  · simp [tally, Pc.weight]
  · exact fun i => trivial
  all_goals simp

variable [DecidableEq ι]

theorem inv_run {as : List (Act ι)} {t : State ι} (orderly : Guarded step Orderly ({} : State ι) as)
    (ran : run step {} as = some t) : Inv t :=
  run_inv (fun _ _ _ inv orderly went => Inv.step inv orderly went) inv_start orderly ran

/-- **One join for each thread.** In every state of an orderly run, however the callers, the signal
handler, the device and the reaper interleave: the threads that were started are those that were
joined and the one of a reaper that is set up, nobody joins a thread that is joined already, and no
lock is set up or destroyed in use. -/
theorem thread_joined_once (as : List (Act ι)) (t : State ι)
    (orderly : Guarded step Orderly ({} : State ι) as) (ran : run step {} as = some t) :
    t.fault = false ∧ t.created = t.joined + t.thread.toList.length ∧
      (t.thread.isSome → t.ready = true) ∧
      ∀ i, (t.pcs i = .freeClear ∨ t.pcs i = .initClear) → t.thread = none := by
  have inv := inv_run orderly ran
  refine ⟨inv.fault, inv.counted, inv.ready, ?_⟩
  intro i at_
  have fits := inv.fits i
  rcases at_ with at_ | at_ <;> rw [at_] at fits <;> exact fits.2.1

/-- The reaper is set up, and then the signal handler and the last reference meet: one of them joins
the thread, and the other one finds it joined. -/
def shutdown : List (Act (Fin 2)) :=
  [.init 0, .step 0 true, .step 0 true, .step 0 true, .step 0 true, .step 0 true, .irq, .reaper true,
    .free 0, .step 0 true, .stop 1, .step 1 true, .reaper true, .step 1 true, .step 1 true,
    .step 0 true, .step 0 true, .step 0 true]

theorem thread_joined_once_shutdown : ∃ t, run step {} shutdown = some t ∧ t.fault = false ∧
    t.created = t.joined + t.thread.toList.length := by
  have joined := thread_joined_once shutdown _ (by decide) rfl
  exact ⟨_, rfl, joined.1, joined.2.1⟩

/-- A reaper that is cleared while the signal handler is at its lock: the lock is destroyed in use. -/
example : (run step {} [.init 0, .step 0 true, .step 0 true, .step 0 true, .step 0 true,
    .step 0 true, .reaper false, .free 0, .step 0 true, .step 0 true, .step 0 true, .step 0 true,
    .step 0 true, .stop (1 : Fin 2), .step 0 true]).any (·.fault) := by decide

/-- **After `unvmed_stop_reapers`.** In an orderly run, when `unvmed_stop_reapers` is done with the
vector no thread of it is left. -/
theorem stop_leaves_none (as : List (Act ι))
    (orderly : Guarded step Orderly ({} : State ι) as) :
    Steps step (fun s a t => ∀ i ok, a = .step i ok → (s.pcs i).stops = true →
      t.pcs i = .idle → t.thread = none) {} as := by
  refine steps_of_guarded (fun _ _ _ inv orderly went => Inv.step inv orderly went) ?_ inv_start
    orderly
  rintro s a t inv - went i ok rfl stops done
  have went : s.agent i ok = some t := went
  unfold State.agent at went
  cases at_ : s.pcs i with
  | joinLock k =>
      simp only [at_] at went
      split at went
      · cases went
      · rename_i held
        have open_ : s.lock = none := Option.not_isSome_iff_eq_none.mp held
        split at went <;> cases went
        · simp [State.goto] at done
        · rename_i idle
          refine inv.no_thread (by simpa using idle) fun j here => ?_
          cases open_.symm.trans ((inv.owner j).mp (by rw [here]; rfl))
  | joinWake k =>
      simp only [at_] at went
      cases went
      simp [State.goto] at done
  | joinWait k =>
      simp only [at_] at went
      split at went <;> cases went <;> first | rfl | assumption
  | _ =>
      rw [at_] at stops
      cases stops

theorem stop_leaves_none_shutdown : Steps step (fun s a t => ∀ i ok, a = .step i ok →
    (s.pcs i).stops = true → t.pcs i = .idle → t.thread = none) ({} : State (Fin 2)) shutdown :=
  stop_leaves_none shutdown (by decide)

/-- The thread ends within `n` steps of its own. -/
def Ends : ℕ → State ι → Prop
  | 0, s => s.thread = some .exited
  | n + 1, s => s.thread = some .exited ∨ ∃ t, s.reaper true = some t ∧ t.pcs = s.pcs ∧ Ends n t

theorem Ends.run {n : ℕ} {s : State ι} (ends : Ends n s) : ∃ k ≤ n, ∃ t,
    Lib.run step s (List.replicate k (.reaper true)) = some t ∧ t.thread = some .exited ∧
      t.pcs = s.pcs := by
  induction n generalizing s with
  | zero => exact ⟨0, le_rfl, s, rfl, ends, rfl⟩
  | succ n ih =>
      rcases ends with here | ⟨u, went, pcs, ends⟩
      · exact ⟨0, Nat.zero_le _, s, rfl, here, rfl⟩
      · obtain ⟨k, le, t, ran, exited, same⟩ := ih ends
        refine ⟨k + 1, Nat.succ_le_succ le, t, ?_, exited, same.trans pcs⟩
        have went : step s (.reaper true) = some u := went
        simp [List.replicate_succ, Lib.run, went, ran]

omit [DecidableEq ι] [Fintype ι] in
theorem Ends.next {n : ℕ} {s : State ι} (x : Thread) (efd : ℕ)
    (went : s.reaper true = some { s with thread := some x, efd })
    (ends : Ends n ({ s with thread := some x, efd } : State ι)) : Ends (n + 1) s :=
  .inr ⟨_, went, rfl, ends⟩

omit [DecidableEq ι] [Fintype ι] in
theorem Ends.more {n : ℕ} {s : State ι} (ends : Ends n s) : Ends (n + 1) s := by
  induction n generalizing s with
  | zero => exact .inl ends
  | succ n ih =>
      rcases ends with here | ⟨t, went, pcs, ends⟩
      · exact .inl here
      · exact .inr ⟨t, went, pcs, ih ends⟩

omit [DecidableEq ι] [Fintype ι] in
/-- A thread that is on its way to its end reaches it. -/
theorem State.Leaving.ends {s : State ι} (leaving : s.Leaving) (alive : s.thread.isSome) :
    Ends 6 s := by
  -- from each place of the loop, by the number of steps that are left
  have exited (n : ℕ) (s : State ι) (at_ : s.thread = some .exited) : Ends n s := by
    cases n with
    | zero => exact at_
    | succ n => exact .inl at_
  have checkStop (s : State ι) (why : s.stop = true ∨ s.refcnt = 0)
      (at_ : s.thread = some .checkStop) : Ends 2 s := by
    by_cases stop : s.stop = true
    · exact .next .exited s.efd (by simp [State.reaper, at_, stop]) (exited 1 _ rfl)
    · have zero := why.resolve_left stop
      refine .next .checkRefcnt s.efd (by simp [State.reaper, at_, stop]) ?_
      exact .next .exited s.efd (by simp [State.reaper, zero]) (exited 0 _ rfl)
  have wait (s : State ι) (why : s.stop = true ∨ s.refcnt = 0) (woken : 0 < s.efd)
      (at_ : s.thread = some .wait) : Ends 3 s :=
    .next .checkStop (s.efd - 1) (by simp [State.reaper, at_, woken]) (checkStop _ why rfl)
  have reap (s : State ι) (why : s.stop = true ∨ s.refcnt = 0) (woken : 0 < s.efd)
      (at_ : s.thread = some .reap) : Ends 4 s :=
    .next .wait s.efd (by simp [State.reaper, at_]) (wait _ why woken rfl)
  have checkState (s : State ι) (why : s.stop = true ∨ s.refcnt = 0) (woken : 0 < s.efd)
      (at_ : s.thread = some .checkState) : Ends 5 s := by
    by_cases torn : s.teardown = true
    · exact .next .exited s.efd (by simp [State.reaper, at_, torn]) (exited 4 _ rfl)
    · exact .next .reap s.efd (by simp [State.reaper, at_, torn]) (reap _ why woken rfl)
  obtain ⟨why, how⟩ := leaving
  obtain ⟨x, at_⟩ := Option.isSome_iff_exists.mp alive
  rw [at_] at how
  cases x with
  | exited => exact exited 6 s at_
  | checkStop => exact (checkStop s why at_).more.more.more.more
  | checkRefcnt =>
      by_cases zero : s.refcnt = 0
      · exact .next .exited s.efd (by simp [State.reaper, at_, zero]) (exited 5 _ rfl)
      · have woken : 0 < s.efd := by simpa [zero] using how
        exact .next .checkState s.efd (by simp [State.reaper, at_, zero])
          (checkState _ why woken rfl)
  | wait => exact (wait s why (by simpa using how) at_).more.more.more
  | reap => exact (reap s why (by simpa using how) at_).more.more
  | checkState => exact (checkState s why (by simpa using how) at_).more

/-- **A join returns.** In every state of an orderly run, whoever is in `pthread_join` has woken the
reaper for good: within six steps of its own, whatever the others do meanwhile is not needed, the
thread has ended and the join can be done. -/
theorem joiner_returns (as : List (Act ι)) (s : State ι)
    (orderly : Guarded step Orderly ({} : State ι) as) (ran : run step {} as = some s) (i : ι)
    (k : Caller) (joins : s.pcs i = .joinWait k) :
    ∃ n ≤ 6, ∃ t, run step s (List.replicate n (.reaper true)) = some t ∧
      (step t (.step i true)).isSome := by
  have inv := inv_run orderly ran
  obtain ⟨-, runs, leaving⟩ : s.Fits (.joinWait k) := joins ▸ inv.fits i
  obtain ⟨n, le, t, went, exited, pcs⟩ := (leaving.ends (inv.alive runs)).run
  refine ⟨n, le, t, went, ?_⟩
  simp [step, State.agent, pcs, joins, exited]

/-- The signal handler joins a thread that waits. -/
theorem joiner_returns_stop : ∃ n ≤ 6, ∃ s t, run step ({} : State (Fin 2)) [.init 0, .step 0 true,
    .step 0 true, .step 0 true, .step 0 true, .step 0 true, .stop 1, .step 1 true, .step 1 true] =
      some s ∧ run step s (List.replicate n (.reaper true)) = some t ∧
      (step t (.step 1 true)).isSome := by
  obtain ⟨n, le, t, ran, joins⟩ := joiner_returns (ι := Fin 2) [.init 0, .step 0 true, .step 0 true,
    .step 0 true, .step 0 true, .step 0 true, .stop 1, .step 1 true, .step 1 true] _ (by decide) rfl
    1 .stop rfl
  exact ⟨n, le, _, t, rfl, ran, joins⟩

end Runs

end Unvmed.ReaperThread
