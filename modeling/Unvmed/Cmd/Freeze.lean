import Unvmed.Cmd.Timer

/-!
Switching the timeout supervision off (`lib/libunvmed.c`).

The handler of the timer walks the slots twice. When the first pass has found an expired
command, the second one, under the queue's lock, times out what has expired and freezes the
queue; if no command is left waiting, the handler switches the timer off for good. Here the
passes are taken one slot a step, so that completions, posts and other handlers come in
between, and the queue may be deleted and initialised again while somebody holds it.

* `off_frozen`: a queue whose timer is off is frozen, in every state of a run whose steps
  are `Decided`.
* `off_unfrozen`: the expired command completes between the two passes, and the timer is
  switched off though the queue stays open.
-/

namespace Unvmed.Freeze

open Lib

variable {ι : Type}

/-- Where a thread of `unvmed_timer_handler` stands. -/
inductive Pc where
  | idle
  /-- The first pass, with the locals `now` and `next`. -/
  | scan (cid : Nat) (now next : Timer.Timespec)
  /-- The first pass has found an expired command: `unvmed_sq_enter`. -/
  | enter (now : Timer.Timespec)
  /-- The second pass. -/
  | sweep (cid : Nat) (now next : Timer.Timespec) (timedout : Bool)
  /-- Behind `unvmed_sq_exit`. -/
  | leave (now next : Timer.Timespec)
  deriving DecidableEq, Repr

/-- A published queue, and the threads of its timer. -/
structure State (ι : Type) where
  sq : Timer.State
  enabled : Bool
  /-- Which handler holds `usq->lock`. -/
  lock : Option ι
  pc : ι → Pc

inductive Act (ι : Type) where
  /-- A post, a completion or an expiration, or time passes. -/
  | queue (a : Timer.Act)
  /-- `unvmed_enable_sq` and `unvmed_disable_sq`. -/
  | setEnabled (on : Bool)
  /-- `unvmed_init_usq` finds the instance. -/
  | initUsq (qsize : Nat)
  /-- The thread of an expiration starts. -/
  | start (t : ι)
  /-- The next step of a handler. -/
  | handler (t : ι)
  deriving Repr

section Steps

variable [DecidableEq ι]

def State.goto (s : State ι) (t : ι) (pc : Pc) : State ι :=
  { s with pc := Function.update s.pc t pc }

/-- One step of `unvmed_timer_handler`. -/
def handlerStep (s : State ι) (t : ι) : Option (State ι) :=
  match s.pc t with
  | .idle => none
  | .scan cid now next =>
      if cid < s.sq.qsize - 1 then
        match Timer.visit (s.sq.cmds (.cmd cid)) now next with
        | (true, _) => some (s.goto t (.enter now))
        | (false, next) => some (s.goto t (.scan (cid + 1) now next))
      else
        let sec : Int := if next.sec = 0 then s.sq.timeout else next.sec - now.sec
        some ({ s with sq := s.sq.timerUpdate sec }.goto t .idle)
  | .enter now =>
      if s.lock = none then some ({ s with lock := some t }.goto t (.sweep 0 now .zero false))
      else none
  | .sweep cid now next timedout =>
      if cid < s.sq.qsize - 1 then
        match Timer.visit (s.sq.cmds (.cmd cid)) now next with
        | (true, next) =>
            let sq := s.sq.setCmd (.cmd cid) (Timer.cmdTimeout (s.sq.cmds (.cmd cid)))
            some ({ s with sq := sq }.goto t (.sweep (cid + 1) now next true))
        | (false, next) => some (s.goto t (.sweep (cid + 1) now next timedout))
      else
        let sq := { s.sq with frozen := s.sq.frozen || timedout }
        some ({ s with sq := sq, lock := none }.goto t (.leave now next))
  | .leave now next =>
      if next.sec ≠ 0 then
        let delta : Int := next.sec - now.sec
        some ({ s with sq := s.sq.timerUpdate (if 0 < delta then delta else 1) }.goto t .idle)
      else some ({ s with sq := { s.sq with active := false } }.goto t .idle)

def step (s : State ι) : Act ι → Option (State ι)
  | .queue .handler => none
  | .queue (.post slot) =>
      if s.enabled then (Timer.step s.sq (.post slot)).map fun sq => { s with sq := sq } else none
  | .queue a => (Timer.step s.sq a).map fun sq => { s with sq := sq }
  | .setEnabled on => some { s with enabled := on }
  | .initUsq qsize =>
      -- The flags are cleared, and the timer is left as it is.
      if s.enabled = false ∧ s.lock = none then
        some { s with sq := { s.sq with qsize := qsize, frozen := false } }
      else none
  | .start t =>
      if 0 < s.sq.fired ∧ s.pc t = .idle then
        let s := { s with sq := { s.sq with fired := s.sq.fired - 1 } }
        some (if s.sq.active then s.goto t (.scan 0 s.sq.now .zero) else s)
      else none
  | .handler t => handlerStep s t

end Steps

/-- `unvmed_init_usq` of a new instance. -/
def start (now : Timer.Timespec) (timeout qsize : Nat) : State ι :=
  ⟨Timer.start now timeout qsize, false, none, fun _ => .idle⟩

/-! ### Freezing -/

/-- A queue whose timer is off accepts no commands. -/
def State.Frozen (s : State ι) : Prop := s.sq.active = false → s.sq.frozen = true

/-- The handler is going to switch the timer off. -/
def Pc.switchesOff : Pc → Bool
  | .leave _ next => next.sec == 0
  | .idle | .scan .. | .enter _ | .sweep .. => false

/-- A second pass that ends here found an expired command or one that still waits, unless the
queue is frozen already. -/
def Pc.decided (qsize : Nat) (frozen : Bool) : Pc → Bool
  | .sweep cid _ next timedout => decide (cid < qsize - 1) || timedout || next.sec != 0 || frozen
  | .idle | .scan .. | .enter _ | .leave .. => true

/-- The second pass of a handler does not come out empty, and the queue is initialised again
only while its timer is active and no handler is about to switch it off. -/
def Decided (s : State ι) : Act ι → Prop
  | .handler t => (s.pc t).decided s.sq.qsize s.sq.frozen = true
  | .initUsq _ => s.sq.active = true ∧ ∀ t, (s.pc t).switchesOff = false
  | .queue _ | .setEnabled _ | .start _ => True

instance [Fintype ι] (s : State ι) : DecidablePred (Decided s)
  | .handler _ => inferInstanceAs (Decidable (_ = _))
  | .initUsq _ => inferInstanceAs (Decidable (_ ∧ ∀ t, (s.pc t).switchesOff = false))
  | .queue _ | .setEnabled _ | .start _ => .isTrue trivial

/-! ### One step -/

structure State.Inv (s : State ι) : Prop where
  off : s.Frozen
  leaving : ∀ t, (s.pc t).switchesOff = true → s.sq.frozen = true

theorem start_inv (now : Timer.Timespec) (timeout qsize : Nat) :
    (start now timeout qsize : State ι).Inv := by
  constructor
  · intro off
    cases off
  · intro t leaving
    cases leaving

/-- What leaves the flags of the queue alone keeps the invariant, and a thread may move on
when it is not about to switch the timer off. -/
theorem State.Inv.flags {s s' : State ι} (h : s.Inv) (active : s'.sq.active = s.sq.active)
    (frozen : s'.sq.frozen = s.sq.frozen)
    (pc : ∀ t, (s'.pc t).switchesOff = true → (s.pc t).switchesOff = true) : s'.Inv := by
  constructor
  · intro off
    rw [frozen]
    exact h.off (active ▸ off)
  · intro t leaving
    rw [frozen]
    exact h.leaving t (pc t leaving)

section Threads

variable [DecidableEq ι]

theorem State.goto_switchesOff {s : State ι} {t t' : ι} {pc : Pc}
    (leaving : ((s.goto t pc).pc t').switchesOff = true) :
    pc.switchesOff = true ∨ (s.pc t').switchesOff = true := by
  by_cases same : t' = t
  · subst same
    have moved : (s.goto t' pc).pc t' = pc := Function.update_self ..
    rw [moved] at leaving
    exact .inl leaving
  · have kept : (s.goto t pc).pc t' = s.pc t' := Function.update_of_ne same _ _
    rw [kept] at leaving
    exact .inr leaving

/-- A thread moves on, and leaves the flags alone. -/
theorem State.Inv.goto {s s' : State ι} (h : s.Inv) {t : ι} {pc : Pc}
    (active : s'.sq.active = s.sq.active) (frozen : s'.sq.frozen = s.sq.frozen)
    (pcs : s'.pc = s.pc) (stays : pc.switchesOff = false) : (s'.goto t pc).Inv := by
  refine h.flags active frozen ?_
  intro t' leaving
  rcases State.goto_switchesOff leaving with here | before
  · rw [stays] at here
    cases here
  · rw [← pcs]
    exact before

theorem timerUpdate_flags (s : Timer.State) (sec : Int) :
    (s.timerUpdate sec).active = s.active ∧ (s.timerUpdate sec).frozen = s.frozen := by
  unfold Timer.State.timerUpdate
  split
  · exact ⟨rfl, rfl⟩
  · split
    · exact ⟨rfl, rfl⟩
    · exact ⟨rfl, rfl⟩

/-- No step of the queue besides the handler touches the flags. -/
theorem queue_flags {s s' : Timer.State} {a : Timer.Act} (notHandler : a ≠ .handler)
    (hstep : Timer.step s a = some s') : s'.active = s.active ∧ s'.frozen = s.frozen := by
  cases a with
  | handler => exact absurd rfl notHandler
  | post slot =>
      simp only [Timer.step] at hstep
      split at hstep
      · cases hstep
        unfold Timer.State.cmdPost Timer.State.cmdAddTimer
        simp only
        split
        · split
          · exact timerUpdate_flags _ _
          · exact ⟨rfl, rfl⟩
        · exact ⟨rfl, rfl⟩
      · cases hstep
  | tick now =>
      simp only [Timer.step] at hstep
      split at hstep <;> cases hstep
      exact ⟨rfl, rfl⟩
  | alloc slot wakeup =>
      simp only [Timer.step] at hstep
      split at hstep <;> cases hstep
      exact ⟨rfl, rfl⟩
  | complete slot =>
      simp only [Timer.step] at hstep
      split at hstep <;> cases hstep
      exact ⟨rfl, rfl⟩
  | put slot =>
      simp only [Timer.step] at hstep
      split at hstep <;> cases hstep
      · exact ⟨rfl, rfl⟩
      · exact ⟨rfl, rfl⟩
  | fire =>
      simp only [Timer.step] at hstep
      split at hstep
      · cases hstep
      · split at hstep <;> cases hstep
        exact ⟨rfl, rfl⟩

theorem handlerStep_inv {s s' : State ι} {t : ι} (h : s.Inv)
    (guard : (s.pc t).decided s.sq.qsize s.sq.frozen = true)
    (hstep : handlerStep s t = some s') : s'.Inv := by
  unfold handlerStep at hstep
  split at hstep
  · cases hstep
  · rename_i cid now next at_
    split at hstep
    · split at hstep <;> cases hstep
      · exact h.goto rfl rfl rfl rfl
      · exact h.goto rfl rfl rfl rfl
    · cases hstep
      exact h.goto (timerUpdate_flags ..).1 (timerUpdate_flags ..).2 rfl rfl
  · split at hstep <;> cases hstep
    exact h.goto rfl rfl rfl rfl
  · rename_i cid now next timedout at_
    split at hstep
    · split at hstep <;> cases hstep
      · exact h.goto rfl rfl rfl rfl
      · exact h.goto rfl rfl rfl rfl
    · rename_i ended
      cases hstep
      constructor
      · intro off
        change (s.sq.frozen || timedout) = true
        rw [h.off off, Bool.true_or]
      · intro t' leaving
        change (s.sq.frozen || timedout) = true
        rcases State.goto_switchesOff leaving with here | before
        · -- This handler is about to switch the timer off, so it has timed out a command.
          rw [at_] at guard
          simp only [Pc.switchesOff, beq_iff_eq] at here
          simp only [Pc.decided, decide_eq_false ended, here, Bool.false_or, bne_self_eq_false,
            Bool.or_false] at guard
          rw [Bool.or_comm]
          exact guard
        · rw [h.leaving t' before, Bool.true_or]
  · rename_i now next at_
    split at hstep
    · cases hstep
      exact h.goto (timerUpdate_flags ..).1 (timerUpdate_flags ..).2 rfl rfl
    · rename_i unset
      cases hstep
      have frozen : s.sq.frozen = true := by
        apply h.leaving t
        rw [at_]
        simpa [Pc.switchesOff] using unset
      exact ⟨fun _ => frozen, fun _ _ => frozen⟩

/-- **Step lemma.** -/
theorem step_inv {s s' : State ι} {a : Act ι} (h : s.Inv) (guard : Decided s a)
    (hstep : step s a = some s') : s'.Inv := by
  have queue {a : Timer.Act} (notHandler : a ≠ .handler)
      (taken : (Timer.step s.sq a).map (fun sq => { s with sq := sq }) = some s') : s'.Inv := by
    obtain ⟨sq, moved, rfl⟩ := Option.map_eq_some_iff.mp taken
    obtain ⟨active, frozen⟩ := queue_flags notHandler moved
    exact h.flags active frozen fun _ leaving => leaving
  cases a with
  | queue a =>
      cases a with
      | handler => cases hstep
      | post slot =>
          simp only [step] at hstep
          split at hstep
          · exact queue (by simp) hstep
          · cases hstep
      | tick now => exact queue (by simp) hstep
      | alloc slot wakeup => exact queue (by simp) hstep
      | complete slot => exact queue (by simp) hstep
      | put slot => exact queue (by simp) hstep
      | fire => exact queue (by simp) hstep
  | setEnabled on =>
      cases hstep
      exact h.flags rfl rfl fun _ leaving => leaving
  | initUsq qsize =>
      simp only [step] at hstep
      split at hstep <;> cases hstep
      obtain ⟨active, none⟩ := guard
      constructor
      · intro off
        change s.sq.active = false at off
        rw [active] at off
        cases off
      · intro t leaving
        change (s.pc t).switchesOff = true at leaving
        rw [none t] at leaving
        cases leaving
  | start t =>
      simp only [step] at hstep
      split at hstep <;> cases hstep
      split
      · exact h.goto rfl rfl rfl rfl
      · exact h.flags rfl rfl fun _ leaving => leaving
  | handler t => exact handlerStep_inv h guard hstep

/-! ### Runs -/

/-- **Timer off implies queue frozen.** -/
theorem off_frozen {now : Timer.Timespec} {timeout qsize : Nat} {as : List (Act ι)} {s : State ι}
    (decided : Guarded step Decided (start now timeout qsize) as)
    (hrun : run step (start now timeout qsize) as = some s) : s.Frozen :=
  (run_inv (fun _ _ _ h guard hstep => step_inv h guard hstep) (start_inv now timeout qsize)
    decided hrun).off

/-- One command expires, is timed out and freezes the queue. -/
def timedOut : List (Act Unit) :=
  [.setEnabled true, .queue (.alloc (.cmd 0) false), .queue (.post (.cmd 0)),
    .queue (.tick (Timer.clock 12 0)), .queue .fire, .start (), .handler (), .handler (),
    .handler (), .handler (), .handler ()]

/-- The queue at the end of `timedOut`. -/
def timedOutEnd : State Unit :=
  (run step (start (Timer.clock 10 0) 1 2) timedOut).get (by decide)

theorem timedOut_frozen : Guarded step Decided (start (Timer.clock 10 0) 1 2) timedOut ∧
    timedOutEnd.sq.active = false ∧ timedOutEnd.Frozen := by
  have hrun : run step (start (Timer.clock 10 0) 1 2) timedOut = some timedOutEnd := by
    rw [timedOutEnd, Option.some_get]
  exact ⟨by decide, by decide, off_frozen (by decide) hrun⟩

/-- The command completes when the first pass has found it expired. -/
def completedBetween : List (Act Unit) :=
  [.setEnabled true, .queue (.alloc (.cmd 0) false), .queue (.post (.cmd 0)),
    .queue (.tick (Timer.clock 12 0)), .queue .fire, .start (), .handler (),
    .queue (.complete (.cmd 0)), .handler (), .handler (), .handler (), .handler ()]

def completedBetweenEnd : State Unit :=
  (run step (start (Timer.clock 10 0) 1 2) completedBetween).get (by decide)

/-- The second pass finds nothing, and the timer is switched off all the same. -/
theorem off_unfrozen : ¬ ∀ (now : Timer.Timespec) (timeout qsize : Nat) (as : List (Act Unit))
    (s : State Unit), run step (start now timeout qsize) as = some s → s.Frozen := by
  intro all
  have hrun : run step (start (Timer.clock 10 0) 1 2) completedBetween =
      some completedBetweenEnd := by
    rw [completedBetweenEnd, Option.some_get]
  have frozen := all _ _ _ _ _ hrun (by decide)
  exact absurd frozen (by decide)

end Threads

end Unvmed.Freeze
