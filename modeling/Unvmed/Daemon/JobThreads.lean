import Unvmed.Lib.Tally
import Unvmed.Daemon.Jobs

/-!
The threads of the daemon, whatever becomes of the job table (`src/unvmed.c`).

Nothing is asked of the runs here: jobs may be looked up after their free or deleted twice. What
is left is which thread and which position of the main loop belong to a job, and that the daemon
comes to rest when no message arrives.

* `step_work`: every step without a message uses up some of the daemon's work.
* `State.Rests.returned`: when no step is left, the main loop waits for a message and the
  threads have returned.
-/

namespace Unvmed.Jobs

open Lib

/-! ### What a step does -/

/-- What a step does. The deletions of the main loop and of the threads are left to their own
functions. -/
inductive Effect (s : State) : Act → State → Prop where
  | recvNormal {pid : Nat} : s.main = .idle →
      Effect s (.recvNormal pid) ((s.addJob pid).setMain (.create s.next))
  | create {e : Nat} {ok : Bool} : s.main = .create e → Effect s (.create ok)
      (((s.touch e).setHandler e (if ok then .init else .absent)).setMain .idle)
  | recvSignal {pid signum : Nat} {m : Main} : s.main = .idle →
      m = .idle ∨ (∃ e, s.getJob pid = some e ∧ m = .kill e pid signum) →
      Effect s (.recvSignal pid signum) (s.walk.setMain m)
  | main {s' : State} : mainStep s = some s' → Effect s .main s'
  | init {t : Nat} {ok : Bool} : s.handler t = .init →
      Effect s (.init t ok) (s.setHandler t (if ok then .run else .returned))
  | finish {t : Nat} : s.handler t = .run → Effect s (.finish t) (s.setHandler t .exitJob)
  | handler {t : Nat} {s' : State} : handlerStep s t = some s' → Effect s (.handler t) s'
  | deliver {t : Nat} {s' : State} : deliverStep s t = some s' → Effect s (.deliver t) s'

theorem step_effect {s s' : State} {a : Act} (hstep : step s a = some s') : Effect s a s' := by
  cases a with
  | recvNormal pid =>
      simp only [step] at hstep
      split at hstep
      · rename_i idle
        cases hstep
        exact .recvNormal idle
      · cases hstep
  | create ok =>
      simp only [step] at hstep
      split at hstep
      · rename_i e at_
        cases hstep
        exact .create at_
      · cases hstep
  | recvSignal pid signum =>
      simp only [step] at hstep
      split at hstep
      · rename_i idle
        cases hstep
        refine .recvSignal idle ?_
        cases found : s.getJob pid with
        | none => exact .inl rfl
        | some e => exact .inr ⟨e, rfl, rfl⟩
      · cases hstep
  | main => exact .main hstep
  | init t ok =>
      simp only [step] at hstep
      split at hstep
      · rename_i at_
        cases hstep
        exact .init at_
      · cases hstep
  | finish t =>
      simp only [step] at hstep
      split at hstep
      · rename_i at_
        cases hstep
        exact .finish at_
      · cases hstep
  | handler t => exact .handler hstep
  | deliver t => exact .deliver hstep

/-! ### Threads and jobs -/

/-- The main loop works on a job that there is. -/
def Main.Within (n : Nat) : Main → Prop
  | .create e | .kill e _ _ | .join e _ _ | .joining e _ _ => e < n
  | .idle | .delGet _ | .unlink _ | .free _ => True

structure State.Threads (s : State) : Prop where
  table : ∀ e ∈ s.table, e < s.next
  unborn : ∀ e, s.next ≤ e → s.handler e = .absent ∧ s.pending e = false
  main : s.main.Within s.next
  create : ∀ e, s.main = .create e → s.handler e = .absent

theorem start_threads : start.Threads := by
  refine ⟨?_, fun _ _ => ⟨rfl, rfl⟩, trivial, fun e creates => ?_⟩
  · intro e linked
    cases linked
  · cases creates

namespace State.Threads

variable {s : State} (h : s.Threads)
include h

theorem born {t : Nat} (there : s.handler t ≠ .absent) : t < s.next := by
  by_contra unborn
  exact there (h.unborn t (Nat.le_of_not_lt unborn)).1

/-- The main loop moves on and does not create a thread. -/
theorem setMain {m : Main} (within : m.Within s.next) (creates : ∀ e, m ≠ .create e) :
    (s.setMain m).Threads :=
  ⟨h.table, h.unborn, within, fun e at_ => absurd at_ (creates e)⟩

/-- A thread that there is moves on. -/
theorem setHandler {t : Nat} {x : Handler} (there : s.handler t ≠ .absent) :
    (s.setHandler t x).Threads := by
  refine ⟨h.table, ?_, h.main, ?_⟩
  · intro e unborn
    have before := h.unborn e unborn
    have apart : e ≠ t := by
      rintro rfl
      exact there before.1
    exact ⟨(Function.update_of_ne apart _ _).trans before.1, before.2⟩
  · intro e creates
    have absent := h.create e creates
    have apart : e ≠ t := by
      rintro rfl
      exact there absent
    exact (Function.update_of_ne apart _ _).trans absent

theorem listDel (e : Nat) : (s.listDel e).Threads :=
  ⟨fun e' linked => h.table e' (List.mem_of_mem_erase linked), h.unborn, h.main, h.create⟩

theorem free (e : Nat) : (s.free e).Threads := ⟨h.table, h.unborn, h.main, h.create⟩

theorem walk : s.walk.Threads := ⟨h.table, h.unborn, h.main, h.create⟩

theorem touch (e : Nat) : (s.touch e).Threads := ⟨h.table, h.unborn, h.main, h.create⟩

/-- A signal is sent to a thread that there is, or was taken. -/
theorem setPending {e : Nat} (within : e < s.next) (b : Bool) :
    State.Threads { s with pending := Function.update s.pending e b } := by
  refine ⟨h.table, ?_, h.main, h.create⟩
  intro e' unborn
  have before := h.unborn e' unborn
  have apart : e' ≠ e := fun same => absurd within (Nat.not_lt.mpr (same ▸ unborn))
  exact ⟨before.1, (Function.update_of_ne apart _ _).trans before.2⟩

theorem addJob (pid : Nat) : ((s.addJob pid).setMain (.create s.next)).Threads := by
  refine ⟨?_, ?_, Nat.lt_succ_self _, ?_⟩
  · intro e linked
    rcases List.mem_append.mp linked with old | new
    · exact Nat.lt_succ_of_lt (h.table e old)
    · rw [List.mem_singleton.mp new]
      exact Nat.lt_succ_self _
  · intro e unborn
    exact h.unborn e (Nat.le_of_succ_le unborn)
  · intro e creates
    cases creates
    exact (h.unborn s.next le_rfl).1

theorem start {e : Nat} {x : Handler} (at_ : s.main = .create e) :
    ((s.setHandler e x).setMain .idle).Threads := by
  refine ⟨h.table, ?_, trivial, fun e' creates => ?_⟩
  · intro e' unborn
    have within := h.main
    rw [at_] at within
    have apart : e' ≠ e := fun same => absurd within (Nat.not_lt.mpr (same ▸ unborn))
    have before := h.unborn e' unborn
    exact ⟨(Function.update_of_ne apart _ _).trans before.1, before.2⟩
  · cases creates

theorem found {pid e : Nat} (found : s.getJob pid = some e) : e < s.next :=
  h.table e (State.getJob_some found).1

end State.Threads

theorem mainStep_threads {s s' : State} (h : s.Threads) (hstep : mainStep s = some s') :
    s'.Threads := by
  have within := h.main
  unfold mainStep at hstep
  cases at_ : s.main with
  | idle => simp [at_] at hstep
  | create e => simp [at_] at hstep
  | kill e pid signum =>
      rw [at_] at hstep within
      cases hstep
      have moved : ((s.touch e).setMain (.join e pid signum)).Threads :=
        (h.touch e).setMain within (by simp)
      exact moved.setPending within true
  | join e pid signum =>
      rw [at_] at hstep within
      cases hstep
      exact (h.touch e).setMain within (by simp)
  | joining t pid signum =>
      rw [at_] at hstep
      simp only at hstep
      split at hstep
      · cases hstep
        apply h.setMain
        · split <;> trivial
        · split <;> simp
      · cases hstep
  | delGet pid =>
      rw [at_] at hstep
      cases hstep
      apply h.walk.setMain
      · split <;> trivial
      · split <;> simp
  | unlink e =>
      rw [at_] at hstep
      cases hstep
      exact (h.listDel e).setMain trivial (by simp)
  | free e =>
      rw [at_] at hstep
      cases hstep
      exact (h.free e).setMain trivial (by simp)

theorem handlerStep_threads {s s' : State} {t : Nat} (h : s.Threads)
    (hstep : handlerStep s t = some s') : s'.Threads := by
  unfold handlerStep at hstep
  cases at_ : s.handler t with
  | absent => simp [at_] at hstep
  | init => simp [at_] at hstep
  | run => simp [at_] at hstep
  | returned => simp [at_] at hstep
  | exitJob =>
      rw [at_] at hstep
      cases hstep
      exact h.walk.setHandler (by simp [State.walk, at_])
  | unlink e =>
      rw [at_] at hstep
      cases hstep
      exact (h.listDel e).setHandler (by simp [State.listDel, State.touch, at_])
  | free e =>
      rw [at_] at hstep
      cases hstep
      exact (h.free e).setHandler (by simp [State.free, at_])

theorem deliverStep_threads {s s' : State} {t : Nat} (h : s.Threads)
    (hstep : deliverStep s t = some s') : s'.Threads := by
  unfold deliverStep at hstep
  split at hstep
  · have moved {x : Handler} (there : s.handler t ≠ .absent) :
        ({ s with pending := Function.update s.pending t false }.setHandler t x).Threads :=
      (h.setPending (h.born there) false).setHandler there
    cases at_ : s.handler t with
    | absent => simp [at_] at hstep
    | returned => simp [at_] at hstep
    | init | run | exitJob | unlink | free =>
        rw [at_] at hstep
        cases hstep
        exact moved (by simp [at_])
  · cases hstep

/-- Every step keeps the threads and the jobs apart. -/
theorem step_threads {s s' : State} {a : Act} (h : s.Threads) (hstep : step s a = some s') :
    s'.Threads := by
  cases step_effect hstep with
  | recvNormal idle => exact h.addJob _
  | create at_ => exact (h.touch _).start at_
  | recvSignal idle found =>
      rcases found with rfl | ⟨e, found, rfl⟩
      · exact h.walk.setMain trivial (by simp)
      · exact h.walk.setMain (h.found found) (by simp)
  | main moved => exact mainStep_threads h moved
  | init at_ => exact h.setHandler (by simp [at_])
  | finish at_ => exact h.setHandler (by simp [at_])
  | handler moved => exact handlerStep_threads h moved
  | deliver moved => exact deliverStep_threads h moved

/-! ### What is left to do -/

/-- The steps that are left in a message, and those of the thread it starts or signals. -/
def Main.work : Main → Nat
  | .idle => 0
  | .create _ => 8
  | .kill .. => 12
  | .join .. => 6
  | .joining .. => 4
  | .delGet _ => 3
  | .unlink _ => 2
  | .free _ => 1

def Handler.work : Handler → Nat
  | .absent | .returned => 0
  | .init => 6
  | .run => 5
  | .exitJob => 4
  | .unlink _ => 3
  | .free _ => 2

/-- A signal makes a handler start its exit over. -/
def pendingWork : Bool → Nat
  | true => 4
  | false => 0

def State.work (s : State) : Nat :=
  s.main.work + (tallyTo s.next Handler.work s.handler + tallyTo s.next pendingWork s.pending)

/-- The message that a step of the main loop takes brings work. -/
def Act.brings : Act → Nat
  | .recvNormal _ => 9
  | .recvSignal .. => 13
  | .create _ | .main | .init .. | .finish _ | .handler _ | .deliver _ => 0

section Work

variable (s : State) {t : Nat}

end Work

/-- Every thread was created. -/
def State.Started (s : State) : Prop := ∀ t < s.next, s.handler t = .absent → s.main = .create t

def Act.Creates : Act → Prop
  | .create ok => ok = true
  | _ => True

theorem start_started : start.Started := fun t born => absurd born (Nat.not_lt_zero t)

/-- A signal's step of the main loop leaves the threads and the jobs alone, and is no part of
`unvme_run_job`. -/
theorem mainStep_frame {s s' : State} (hstep : mainStep s = some s') :
    s'.next = s.next ∧ s'.handler = s.handler ∧ s'.pid = s.pid ∧ (∀ e, s.main ≠ .create e) ∧
      ∀ e, s'.main ≠ .create e := by
  unfold mainStep at hstep
  cases at_ : s.main <;> rw [at_] at hstep
  case joining =>
    simp only at hstep
    split at hstep
    · cases hstep
      refine ⟨rfl, rfl, rfl, by simp, ?_⟩
      simp only [State.setMain]
      split <;> simp
    · cases hstep
  case delGet =>
    cases hstep
    refine ⟨rfl, rfl, rfl, by simp, ?_⟩
    simp only [State.setMain]
    split <;> simp
  all_goals first
    | cases hstep
      exact ⟨rfl, rfl, rfl, by simp, by simp [State.setMain]⟩
    | simp at hstep

/-- Thread `t` moves on by itself, and is not back in its command. -/
structure Moves (t : Nat) (s s' : State) : Prop where
  next : s'.next = s.next
  pid : s'.pid = s.pid
  main : s'.main = s.main
  handler : ∃ x, (x ≠ .absent ∧ x ≠ .init ∧ x ≠ .run) ∧ s'.handler = Function.update s.handler t x
  there : s.handler t ≠ .absent
  running : s.handler t ≠ .returned

theorem Moves.other {s s' : State} {t u : Nat} (h : Moves u s s') (other : t ≠ u) :
    s'.handler t = s.handler t := by
  obtain ⟨x, -, handler⟩ := h.handler
  rw [handler, Function.update_of_ne other]

theorem handlerStep_moves {s s' : State} {t : Nat} (hstep : handlerStep s t = some s') :
    Moves t s s' ∧ s.handler t ≠ .init ∧ s.handler t ≠ .run := by
  unfold handlerStep at hstep
  cases at_ : s.handler t <;> rw [at_] at hstep
  case exitJob =>
    cases hstep
    refine ⟨⟨rfl, rfl, rfl, ⟨_, ?_, rfl⟩, by simp [at_], by simp [at_]⟩, by simp, by simp⟩
    split <;> simp
  case unlink e =>
    cases hstep
    exact ⟨⟨rfl, rfl, rfl, ⟨_, by simp, rfl⟩, by simp [at_], by simp [at_]⟩, by simp, by simp⟩
  case free e =>
    cases hstep
    exact ⟨⟨rfl, rfl, rfl, ⟨_, by simp, rfl⟩, by simp [at_], by simp [at_]⟩, by simp, by simp⟩
  all_goals cases hstep

theorem deliverStep_moves {s s' : State} {t : Nat} (hstep : deliverStep s t = some s') :
    Moves t s s' := by
  unfold deliverStep at hstep
  split at hstep
  · cases at_ : s.handler t <;> rw [at_] at hstep
    case absent => cases hstep
    case returned => cases hstep
    all_goals
      cases hstep
      exact ⟨rfl, rfl, rfl, ⟨_, by simp, rfl⟩, by simp [at_], by simp [at_]⟩
  · cases hstep

/-- The thread of a job is there, or is going to be. -/
def State.Working (s : State) (t : Nat) : Prop :=
  s.main = .create t ∨ s.handler t ≠ .absent ∧ s.handler t ≠ .returned

/-- The thread of a job has not come to its reply. -/
def State.Due (s : State) (t : Nat) : Prop :=
  s.main = .create t ∨ s.handler t = .init ∨ s.handler t = .run

/-- A job comes with a command, and keeps its client. -/
theorem step_pid {s s' : State} {a : Act} (hstep : step s a = some s') :
    (∃ p, a = .recvNormal p ∧ s'.next = s.next + 1 ∧
      s'.pid = Function.update s.pid s.next p) ∨ s'.next = s.next ∧ s'.pid = s.pid := by
  cases step_effect hstep with
  | recvNormal idle => exact .inl ⟨_, rfl, rfl, rfl⟩
  | main moved =>
      obtain ⟨next, -, pid, -, -⟩ := mainStep_frame moved
      exact .inr ⟨next, pid⟩
  | handler moved =>
      have moves := (handlerStep_moves moved).1
      exact .inr ⟨moves.next, moves.pid⟩
  | deliver moved =>
      have moves := deliverStep_moves moved
      exact .inr ⟨moves.next, moves.pid⟩
  | create | recvSignal | init | finish => exact .inr ⟨rfl, rfl⟩

theorem step_started {s s' : State} {a : Act} (h : s.Started) (creates : a.Creates)
    (hstep : step s a = some s') : s'.Started := by
  intro t born absent
  -- Where the thread was there before, and is not the one that moves.
  have before (next : s'.next = s.next) (there : s.handler t = .absent) : s.main = .create t :=
    h t (next ▸ born) there
  have moved {u : Nat} {x : Handler} (there : x ≠ .absent)
      (handler : s'.handler = Function.update s.handler u x) : s.handler t = .absent := by
    rw [handler] at absent
    by_cases same : t = u
    · subst same
      rw [Function.update_self] at absent
      exact absurd absent there
    · rwa [Function.update_of_ne same] at absent
  have moves {u : Nat} (moves : Moves u s s') : s'.main = .create t := by
    obtain ⟨x, there, handler⟩ := moves.handler
    rw [moves.main]
    exact before moves.next (moved there.1 handler)
  cases step_effect hstep with
  | recvNormal idle =>
      rcases Nat.lt_succ_iff_lt_or_eq.mp born with old | rfl
      · have creating := h t old absent
        rw [idle] at creating
        cases creating
      · rfl
  | @create e ok at_ =>
      have started : ok = true := creates
      subst started
      have creating := before rfl (moved (x := .init) (by simp) rfl)
      rw [at_] at creating
      cases creating
      have self : Function.update s.handler t .init t = .absent := absent
      rw [Function.update_self] at self
      cases self
  | recvSignal idle found =>
      have creating := before rfl absent
      rw [idle] at creating
      cases creating
  | main moved =>
      obtain ⟨next, handler, -, other, -⟩ := mainStep_frame moved
      exact absurd (before next (handler ▸ absent)) (other t)
  | @init u ok at_ =>
      exact before rfl (moved (x := if ok then .run else .returned) (by split <;> simp) rfl)
  | finish at_ => exact before rfl (moved (x := .exitJob) (by simp) rfl)
  | handler moved => exact moves (handlerStep_moves moved).1
  | deliver moved => exact moves (deliverStep_moves moved)

/-- No step is left but to take a message. -/
def State.Rests (s : State) : Prop :=
  ∀ a : Act, a.brings = 0 → step s a = none

/-- **Rest.** The main loop waits for a message, and all threads have returned. -/
theorem State.Rests.returned {s : State} (rests : s.Rests) (h : s.Threads) (started : s.Started) :
    s.main = .idle ∧ ∀ t < s.next, s.handler t = .returned := by
  have created (t : Nat) (born : t < s.next) : s.handler t ≠ .absent := by
    intro absent
    have blocked := rests (.create true) rfl
    simp [step, started t born absent] at blocked
  have returned (t : Nat) (born : t < s.next) : s.handler t = .returned := by
    cases at_ : s.handler t with
    | absent => exact absurd at_ (created t born)
    | init =>
        have blocked := rests (.init t true) rfl
        simp [step, at_] at blocked
    | run =>
        have blocked := rests (.finish t) rfl
        simp [step, at_] at blocked
    | exitJob =>
        have blocked := rests (.handler t) rfl
        simp [step, handlerStep, at_] at blocked
    | unlink e =>
        have blocked := rests (.handler t) rfl
        simp [step, handlerStep, at_] at blocked
    | free e =>
        have blocked := rests (.handler t) rfl
        simp [step, handlerStep, at_] at blocked
    | returned => rfl
  refine ⟨?_, returned⟩
  have blocked := rests .main rfl
  have within := h.main
  cases at_ : s.main with
  | idle => rfl
  | create e =>
      have creating := rests (.create true) rfl
      simp [step, at_] at creating
  | joining t pid signum =>
      rw [at_] at within
      simp [step, mainStep, at_, returned t within] at blocked
  | kill e pid signum => simp [step, mainStep, at_] at blocked
  | join e pid signum => simp [step, mainStep, at_] at blocked
  | delGet pid => simp [step, mainStep, at_] at blocked
  | unlink e => simp [step, mainStep, at_] at blocked
  | free e => simp [step, mainStep, at_] at blocked

end Unvmed.Jobs
