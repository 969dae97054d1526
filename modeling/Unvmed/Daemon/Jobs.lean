import Mathlib
import Unvmed.Lib.Run

/-!
The job table of the daemon (`src/unvmed.c`).

The main loop receives messages. A normal message adds a job and starts its handler
thread; a signal message looks the job up, signals and joins its thread, and for
`SIGINT` and `SIGTERM` deletes the job as well. A handler deletes its own job when it
leaves through `unvme_exit_job`. Jobs are numbered in the order of their `calloc`, and
the handler thread of job `e` is thread `e`.

The sections under `__job_mutex` and the accesses to a job between them are the steps of
a run. `getJob` and `list_del` are two sections, with the pointer unprotected between
them.

* `jobs_sound`: every job is unlinked and freed exactly once, and none is touched after
  its free, in every state of a run whose steps are `Safe`.
* `signal_reads_freed_job`: a handler frees its job between the look-up and the
  `pthread_kill` of the signal path.
-/

namespace Unvmed.Jobs

open Lib

/-- `SIGINT`. -/
def sigint : Nat := 2

/-- `SIGTERM`. -/
def sigterm : Nat := 15

/-- The signals after which `unvme_signal_job` deletes the job itself. -/
def sigDeletes (signum : Nat) : Bool := signum == sigint || signum == sigterm

/-- Where the main loop stands. -/
inductive Main where
  /-- In `unvme_recv_msg`. -/
  | idle
  /-- `unvme_run_job` has added the job, and creates its thread next. -/
  | create (e : Nat)
  /-- `unvme_signal_job` has found the job, and reads `job->thread` for `pthread_kill`. -/
  | kill (e pid signum : Nat)
  /-- It reads `job->thread` for `pthread_join`. -/
  | join (e pid signum : Nat)
  /-- It waits for thread `t`. -/
  | joining (t pid signum : Nat)
  /-- `unvme_del_job` looks the job up. -/
  | delGet (pid : Nat)
  /-- `unvme_del_job` unlinks the job it found. -/
  | unlink (e : Nat)
  | free (e : Nat)
  deriving DecidableEq, Repr

/-- Where the handler thread of a job stands. -/
inductive Handler where
  /-- Not created. -/
  | absent
  /-- Before `__msg` is set, in `unvmed_vcq_init`. -/
  | init
  /-- In `__unvme_handler`. -/
  | run
  /-- `unvme_exit_job`, at the look-up of `unvme_del_job`. -/
  | exitJob
  | unlink (e : Nat)
  | free (e : Nat)
  | returned
  deriving DecidableEq, Repr

structure State where
  main : Main
  handler : Nat → Handler
  /-- Jobs allocated so far. -/
  next : Nat
  /-- `job->client_pid` -/
  pid : Nat → Nat
  /-- `__jobs` -/
  table : List Nat
  /-- How often a job was given to `list_del`. -/
  unlinks : Nat → Nat
  /-- How often a job was given to `free`. -/
  frees : Nat → Nat
  /-- A signal was sent to the thread and not taken yet. -/
  pending : Nat → Bool
  /-- Some step has touched a job after its `free`. -/
  stale : Bool

/-- An access to the memory of job `e`. -/
def State.touch (s : State) (e : Nat) : State := { s with stale := s.stale || decide (0 < s.frees e) }

/-- The walk of `list_for_each` over the table. -/
def State.walk (s : State) : State :=
  { s with stale := s.stale || s.table.any fun e => decide (0 < s.frees e) }

/-- The result of `unvme_get_job`. -/
def State.getJob (s : State) (pid : Nat) : Option Nat := s.table.find? fun e => s.pid e == pid

/-- The section of `unvme_add_job`. -/
def State.addJob (s : State) (pid : Nat) : State :=
  { s with
    next := s.next + 1
    pid := Function.update s.pid s.next pid
    table := s.table ++ [s.next] }

/-- The `list_del` of `unvme_del_job`. -/
def State.listDel (s : State) (e : Nat) : State :=
  { s.touch e with
    table := s.table.erase e
    unlinks := Function.update s.unlinks e (s.unlinks e + 1) }

/-- The `free` of `unvme_del_job`. -/
def State.free (s : State) (e : Nat) : State :=
  { s with frees := Function.update s.frees e (s.frees e + 1) }

def State.setMain (s : State) (m : Main) : State := { s with main := m }

def State.setHandler (s : State) (t : Nat) (h : Handler) : State :=
  { s with handler := Function.update s.handler t h }

inductive Act where
  /-- A normal message arrives. -/
  | recvNormal (pid : Nat)
  /-- `pthread_create`, whose result `unvme_run_job` does not read. -/
  | create (ok : Bool)
  /-- A signal message arrives. -/
  | recvSignal (pid signum : Nat)
  /-- The next step of the main loop in a message. -/
  | main
  /-- `unvmed_vcq_init`. -/
  | init (t : Nat) (ok : Bool)
  /-- `__unvme_handler` returns, or calls `exit`. -/
  | finish (t : Nat)
  /-- The next step of `unvme_del_job` in the handler. -/
  | handler (t : Nat)
  /-- Thread `t` takes the signal, whose handler calls `exit`. -/
  | deliver (t : Nat)
  deriving DecidableEq, Repr

/-- The main loop inside a message. -/
def mainStep (s : State) : Option State :=
  match s.main with
  | .kill e pid signum =>
      some { (s.touch e).setMain (.join e pid signum) with pending := Function.update s.pending e true }
  | .join e pid signum => some ((s.touch e).setMain (.joining e pid signum))
  | .joining t pid signum =>
      if s.handler t = .returned then
        some (s.setMain (if sigDeletes signum then .delGet pid else .idle))
      else none
  | .delGet pid => some (s.walk.setMain (match s.getJob pid with
      | none => .idle
      | some e => .unlink e))
  | .unlink e => some ((s.listDel e).setMain (.free e))
  | .free e => some ((s.free e).setMain .idle)
  | .idle | .create _ => none

/-- `unvme_del_job` in a handler. -/
def handlerStep (s : State) (t : Nat) : Option State :=
  match s.handler t with
  | .exitJob => some (s.walk.setHandler t (match s.getJob (s.pid t) with
      | none => .returned
      | some e => .unlink e))
  | .unlink e => some ((s.listDel e).setHandler t (.free e))
  | .free e => some ((s.free e).setHandler t .returned)
  | .absent | .init | .run | .returned => none

/-- The `exit` in the signal's handler: `unvme_exit_job` does nothing before `__msg` is set,
and starts over from inside `unvme_del_job`. -/
def deliverStep (s : State) (t : Nat) : Option State :=
  if s.pending t then
    match s.handler t with
    | .init => some ({ s with pending := Function.update s.pending t false }.setHandler t .returned)
    | .run | .exitJob | .unlink _ | .free _ =>
        some ({ s with pending := Function.update s.pending t false }.setHandler t .exitJob)
    | .absent | .returned => none
  else none

def step (s : State) : Act → Option State
  | .recvNormal pid =>
      if s.main = .idle then some ((s.addJob pid).setMain (.create s.next)) else none
  | .create ok => match s.main with
      | .create e => some (((s.touch e).setHandler e (if ok then .init else .absent)).setMain .idle)
      | _ => none
  | .recvSignal pid signum =>
      if s.main = .idle then
        some (s.walk.setMain (match s.getJob pid with
          | none => .idle
          | some e => .kill e pid signum))
      else none
  | .main => mainStep s
  | .init t ok =>
      if s.handler t = .init then some (s.setHandler t (if ok then .run else .returned)) else none
  | .finish t => if s.handler t = .run then some (s.setHandler t .exitJob) else none
  | .handler t => handlerStep s t
  | .deliver t => deliverStep s t

/-- The daemon has just started. -/
def start : State :=
  ⟨.idle, fun _ => .absent, 0, fun _ => 0, [], fun _ => 0, fun _ => 0, fun _ => false, false⟩

/-! ### Each job is freed once -/

/-- No job was touched after its free or deleted twice, and when the handlers have returned
and the main loop waits for a message, all jobs are gone. -/
structure State.Sound (s : State) : Prop where
  fresh : s.stale = false
  unlinked : ∀ e, s.unlinks e ≤ 1
  freed : ∀ e, s.frees e ≤ 1
  quiet : s.main = .idle → (∀ t < s.next, s.handler t = .returned ∨ s.handler t = .absent) →
    s.table = [] ∧ ∀ e < s.next, s.unlinks e = 1 ∧ s.frees e = 1

/-- The main loop deletes job `e` once its thread has returned. -/
def Main.joins (e : Nat) : Main → Bool
  | .join e' _ signum | .joining e' _ signum => e' == e && sigDeletes signum
  | _ => false

/-- The signal path reads `job->thread` of a job that is not freed. -/
def Main.readsLive (frees : Nat → Nat) : Main → Bool
  | .kill e _ _ | .join e _ _ => frees e == 0
  | _ => true

/-- A signal may end the handler here: not behind the `list_del` of `unvme_del_job`, and
before `__msg` is set only when the main loop deletes the job itself. -/
def Handler.canExit (joined : Bool) : Handler → Bool
  | .init => joined
  | .free _ => false
  | _ => true

/-- No two jobs of one client, no failing `pthread_create` or `unvmed_vcq_init`, the
signal path reads live jobs, and a signal ends a handler where it may. -/
def Safe (s : State) : Act → Prop
  | .recvNormal pid => s.getJob pid = none
  | .create ok | .init _ ok => ok = true
  | .main => s.main.readsLive s.frees = true
  | .deliver t => (s.handler t).canExit (s.main.joins t) = true
  | .recvSignal .. | .finish _ | .handler _ => True

instance (s : State) : DecidablePred (Safe s)
  | .recvNormal _ => inferInstanceAs (Decidable (_ = _))
  | .create _ | .init _ _ | .main | .deliver _ => inferInstanceAs (Decidable (_ = _))
  | .recvSignal .. | .finish _ | .handler _ => .isTrue trivial

/-! ### Where a job is -/

/-- Times in the table, unlinks and frees of job `e`. -/
def State.marks (s : State) (e : Nat) : Nat × Nat × Nat := (s.table.count e, s.unlinks e, s.frees e)

theorem State.mem_of_marks {s : State} {e n m : Nat} (linked : s.marks e = (1, n, m)) :
    e ∈ s.table := by
  apply List.count_pos_iff.mp
  rw [(Prod.mk.inj linked).1]
  decide

/-- The main loop is going to delete job `e`, whose client is `pid`. -/
def Main.Deletes (pid e : Nat) : Main → Prop
  | .join e' _ signum | .joining e' _ signum => e' = e ∧ sigDeletes signum = true
  | .delGet pid' => pid' = pid
  | .unlink e' => e' = e
  | .idle | .create _ | .kill .. | .free _ => False

/-- What the thread of job `e` says about the job's marks: linked `(1, 0, 0)`, unlinked
`(0, 1, 0)` or gone `(0, 1, 1)`. -/
def Handler.Owns (main : Main) (pid e : Nat) (marks : Nat × Nat × Nat) : Handler → Prop
  | .absent => marks = (1, 0, 0) ∧ main = .create e
  | .init | .run | .exitJob => marks = (1, 0, 0)
  | .unlink e' => e' = e ∧ marks = (1, 0, 0)
  | .free e' => e' = e ∧ marks = (0, 1, 0)
  | .returned => marks = (0, 1, 1) ∨ marks = (1, 0, 0) ∧ main.Deletes pid e ∨
      marks = (0, 1, 0) ∧ main = .free e

def State.Entry (s : State) (e : Nat) : Prop :=
  (s.handler e).Owns s.main (s.pid e) e (s.marks e)

/-- What a position of the main loop says. -/
def State.At (s : State) : Main → Prop
  | .idle => True
  | .create e => e < s.next ∧ s.handler e = .absent
  | .kill e pid _ | .join e pid _ | .joining e pid _ =>
      pid = s.pid e ∧ ∀ e' ∈ s.table, s.pid e' = pid → e' = e
  | .delGet pid => ∀ e ∈ s.table, s.pid e = pid → s.handler e = .returned
  | .unlink e => s.handler e = .returned ∧ s.marks e = (1, 0, 0)
  | .free e => s.handler e = .returned ∧ s.marks e = (0, 1, 0)

structure State.Inv (s : State) : Prop where
  fresh : s.stale = false
  unborn : ∀ e, s.next ≤ e → s.handler e = .absent ∧ s.marks e = (0, 0, 0)
  entry : ∀ e < s.next, s.Entry e
  pids : ∀ e ∈ s.table, ∀ e' ∈ s.table, s.pid e = s.pid e' → e = e'
  mainOk : s.At s.main

theorem start_inv : start.Inv := by
  refine ⟨rfl, fun _ _ => ⟨rfl, rfl⟩, ?_, ?_, trivial⟩
  · intro e born
    exact absurd born (Nat.not_lt_zero e)
  · intro e linked
    cases linked

namespace State.Inv

variable {s : State} (h : s.Inv)
include h

theorem born {e : Nat} (linked : e ∈ s.table) : e < s.next := by
  by_contra unborn
  have none := (h.unborn e (by omega)).2
  have count := List.count_pos_iff.mpr linked
  simp only [State.marks, Prod.mk.injEq] at none
  omega

/-- A job of the table is linked once and was never deleted. -/
theorem linked {e : Nat} (linked : e ∈ s.table) : s.marks e = (1, 0, 0) := by
  have entry := h.entry e (h.born linked)
  -- The other positions of a thread have taken the job out of the table.
  have out {n m : Nat} : s.marks e ≠ (0, n, m) := by
    intro marks
    have count := List.count_pos_iff.mpr linked
    simp only [State.marks, Prod.mk.injEq] at marks
    omega
  unfold State.Entry at entry
  cases at_ : s.handler e <;> rw [at_] at entry
  case absent => exact entry.1
  case init => exact entry
  case run => exact entry
  case exitJob => exact entry
  case unlink => exact entry.2
  case free => exact absurd entry.2 out
  case returned =>
    rcases entry with gone | ⟨marks, -⟩ | ⟨cut, -⟩
    · exact absurd gone out
    · exact marks
    · exact absurd cut out

theorem walk_eq : s.walk = s := by
  have none : s.table.any (fun e => decide (0 < s.frees e)) = false := by
    rw [List.any_eq_false]
    intro e linked
    have marks := h.linked linked
    simp only [State.marks, Prod.mk.injEq] at marks
    simp [marks.2.2]
  simp [State.walk, none]

/-- The look-up finds the only job of the client. -/
theorem getJob_eq {e : Nat} (linked : e ∈ s.table) : s.getJob (s.pid e) = some e := by
  cases found : s.getJob (s.pid e) with
  | none =>
      have missing := List.find?_eq_none.mp found e linked
      simp at missing
  | some e' =>
      have mem := List.mem_of_find?_eq_some found
      have pid := List.find?_some found
      rw [h.pids e' mem e linked (by simpa using pid)]

omit h in
theorem touch_eq {e : Nat} (unfreed : s.frees e = 0) : s.touch e = s := by
  simp [State.touch, unfreed]

end State.Inv

theorem State.getJob_some {s : State} {pid e : Nat} (found : s.getJob pid = some e) :
    e ∈ s.table ∧ s.pid e = pid :=
  ⟨List.mem_of_find?_eq_some found, by simpa using List.find?_some found⟩

theorem State.getJob_none {s : State} {pid e : Nat} (missing : s.getJob pid = none)
    (linked : e ∈ s.table) : s.pid e ≠ pid := by
  simpa using List.find?_eq_none.mp missing e linked

/-! ### One step -/

section Fields

variable (s : State) (e e' : Nat)

theorem State.marks_listDel_self (linked : s.marks e = (1, 0, 0)) :
    (s.listDel e).marks e = (0, 1, 0) := by
  simp only [State.marks, Prod.mk.injEq] at linked
  simp [State.marks, State.listDel, State.touch, linked]

theorem State.marks_listDel_other (other : e' ≠ e) : (s.listDel e).marks e' = s.marks e' := by
  simp [State.marks, State.listDel, State.touch, other, List.count_erase_of_ne other]

theorem State.marks_free_self (cut : s.marks e = (0, 1, 0)) : (s.free e).marks e = (0, 1, 1) := by
  simp only [State.marks, Prod.mk.injEq] at cut
  simp [State.marks, State.free, cut]

theorem State.marks_free_other (other : e' ≠ e) : (s.free e).marks e' = s.marks e' := by
  simp [State.marks, State.free, other]

end Fields

/-- What is said of a job depends on its thread, its marks and the main loop. -/
theorem State.Entry.congr {s s' : State} {e : Nat} (entry : s.Entry e)
    (handler : s'.handler e = s.handler e) (marks : s'.marks e = s.marks e)
    (pid : s'.pid = s.pid) (main : s'.main = s.main) : s'.Entry e := by
  unfold State.Entry at entry ⊢
  rw [handler, marks, pid, main]
  exact entry

/-- The main loop moves on, and a job that it was to delete it still is to delete. -/
theorem Handler.Owns.main {m m' : Main} {pid e : Nat} {marks : Nat × Nat × Nat} {x : Handler}
    (owns : x.Owns m pid e marks) (created : x ≠ .absent)
    (deletes : marks = (1, 0, 0) → m.Deletes pid e → m'.Deletes pid e) (freeing : m ≠ .free e) :
    x.Owns m' pid e marks := by
  cases x with
  | absent => exact absurd rfl created
  | returned =>
      rcases owns with gone | ⟨marks, todo⟩ | ⟨-, cut⟩
      · exact .inl gone
      · exact .inr (.inl ⟨marks, deletes marks todo⟩)
      · exact absurd cut freeing
  | init => exact owns
  | run => exact owns
  | exitJob => exact owns
  | unlink e' => exact owns
  | free e' => exact owns

namespace State.Inv

variable {s s' : State} (h : s.Inv)
include h

theorem created {t : Nat} (there : s.handler t ≠ .absent) : t < s.next := by
  by_contra unborn
  exact there (h.unborn t (by omega)).1

/-- What a thread that was created says about its job. -/
theorem owns {t : Nat} {x : Handler} (at_ : s.handler t = x) (there : x ≠ .absent) :
    x.Owns s.main (s.pid t) t (s.marks t) := by
  have entry := h.entry t (h.created (at_ ▸ there))
  unfold State.Entry at entry
  rw [at_] at entry
  exact entry

/-- While the main loop is not in `unvme_run_job`, every job has its thread. -/
theorem all_created (idle : ∀ e, s.main ≠ .create e) {e : Nat} (born : e < s.next) :
    s.handler e ≠ .absent := by
  intro absent
  have entry := h.entry e born
  unfold State.Entry at entry
  rw [absent] at entry
  exact idle e entry.2

/-- The main loop moves on. -/
theorem setMain {m : Main} (running : ∀ e, s.main ≠ .create e)
    (deletes : ∀ e, s.marks e = (1, 0, 0) → s.main.Deletes (s.pid e) e → m.Deletes (s.pid e) e)
    (freeing : ∀ e, s.main ≠ .free e) (ok : s.At m) : (s.setMain m).Inv := by
  refine ⟨h.fresh, h.unborn, ?_, h.pids, ?_⟩
  · intro e born
    exact (h.entry e born).main (h.all_created running born) (deletes e) (freeing e)
  · change s.At m
    cases m <;> exact ok

/-- The main loop moves on and deletes job `e` a bit further. -/
theorem setMain_job {e : Nat} {m : Main} (running : ∀ e, s.main ≠ .create e)
    (deletes : ∀ e', s.main.Deletes (s.pid e') e' → e' = e)
    (freeing : ∀ e', s.main = .free e' → e' = e) (stale : s'.stale = s.stale)
    (next : s'.next = s.next) (pid : s'.pid = s.pid) (handler : s'.handler = s.handler)
    (table : s'.table ⊆ s.table) (others : ∀ e' ≠ e, s'.marks e' = s.marks e')
    (born : e < s.next) (entry : (s'.setMain m).Entry e) (ok : (s'.setMain m).At m) :
    (s'.setMain m).Inv := by
  refine ⟨stale.trans h.fresh, ?_, ?_, ?_, ok⟩
  · intro e' unborn
    change s'.next ≤ e' at unborn
    have apart : e' ≠ e := by omega
    change s'.handler e' = _ ∧ s'.marks e' = _
    rw [handler, others e' apart]
    exact h.unborn e' (next ▸ unborn)
  · intro e' born'
    by_cases same : e' = e
    · rw [same]
      exact entry
    · change (s'.handler e').Owns m (s'.pid e') e' (s'.marks e')
      have before : e' < s.next := next ▸ born'
      rw [handler, pid, others e' same]
      refine (h.entry e' before).main (h.all_created running before) ?_ ?_
      · intro _ todo
        exact absurd (deletes e' todo) same
      · intro cut
        exact same (freeing e' cut)
  · intro e₁ linked₁ e₂ linked₂ samePid
    change s'.pid e₁ = s'.pid e₂ at samePid
    rw [pid] at samePid
    exact h.pids e₁ (table linked₁) e₂ (table linked₂) samePid

/-- A running thread moves on. -/
theorem setHandler {t : Nat} (there : s.handler t ≠ .absent) (running : s.handler t ≠ .returned)
    (stale : s'.stale = s.stale) (next : s'.next = s.next) (pid : s'.pid = s.pid)
    (main : s'.main = s.main) (table : s'.table ⊆ s.table)
    (others : ∀ e ≠ t, s'.handler e = s.handler e ∧ s'.marks e = s.marks e)
    (entry : s'.Entry t) : s'.Inv := by
  have stays {e : Nat} {y : Handler} (at_ : s.handler e = y) (ne : s.handler t ≠ y) :
      s'.handler e = y ∧ s'.marks e = s.marks e := by
    have apart : e ≠ t := by
      rintro rfl
      exact ne at_
    exact ⟨(others e apart).1.trans at_, (others e apart).2⟩
  refine ⟨stale.trans h.fresh, ?_, ?_, ?_, ?_⟩
  · intro e unborn
    have before := h.unborn e (next ▸ unborn)
    have after := stays before.1 there
    exact ⟨after.1, after.2.trans before.2⟩
  · intro e born
    by_cases same : e = t
    · rw [same]
      exact entry
    · exact (h.entry e (next ▸ born)).congr (others e same).1 (others e same).2 pid main
  · intro e₁ linked₁ e₂ linked₂ samePid
    rw [pid] at samePid
    exact h.pids e₁ (table linked₁) e₂ (table linked₂) samePid
  · have ok := h.mainOk
    rw [main]
    -- The job the main loop holds in `unlink` and `free` is not the one of this thread.
    cases at_ : s.main <;> rw [at_] at ok
    case idle => trivial
    case create e => exact ⟨next ▸ ok.1, (stays ok.2 there).1⟩
    case delGet p =>
      intro e linked samePid
      exact (stays (ok e (table linked) (pid ▸ samePid)) running).1
    case unlink e =>
      have after := stays ok.1 running
      exact ⟨after.1, after.2.trans ok.2⟩
    case free e =>
      have after := stays ok.1 running
      exact ⟨after.1, after.2.trans ok.2⟩
    all_goals exact ⟨pid ▸ ok.1, fun e linked samePid => ok.2 e (table linked) (pid ▸ samePid)⟩

end State.Inv

/-- `unvme_run_job` of a client that has no job. -/
theorem State.Inv.addJob {s : State} (h : s.Inv) (idle : s.main = .idle) {pid : Nat}
    (unused : s.getJob pid = none) : ((s.addJob pid).setMain (.create s.next)).Inv := by
  have new := h.unborn s.next le_rfl
  have newMarks := new.2
  simp only [State.marks, Prod.mk.injEq] at newMarks
  have old {e : Nat} (born : e ≠ s.next) : (s.addJob pid).marks e = s.marks e := by
    simp [State.marks, State.addJob, List.count_append, Ne.symm born]
  have oldPid {e : Nat} (born : e ≠ s.next) : (s.addJob pid).pid e = s.pid e :=
    Function.update_of_ne born _ _
  have newPid : (s.addJob pid).pid s.next = pid := Function.update_self ..
  have linked : (s.addJob pid).marks s.next = (1, 0, 0) := by
    simp [State.marks, State.addJob, newMarks]
  have member {e : Nat} (mem : e ∈ (s.addJob pid).table) : e ∈ s.table ∨ e = s.next := by
    simpa [State.addJob] using mem
  refine ⟨h.fresh, ?_, ?_, ?_, ⟨Nat.lt_succ_self _, new.1⟩⟩
  · intro e unborn
    change s.next + 1 ≤ e at unborn
    change s.handler e = _ ∧ (s.addJob pid).marks e = _
    rw [old (by omega)]
    exact h.unborn e (by omega)
  · intro e born
    change e < s.next + 1 at born
    change (s.handler e).Owns (.create s.next) ((s.addJob pid).pid e) e ((s.addJob pid).marks e)
    by_cases same : e = s.next
    · rw [same, new.1, linked]
      exact ⟨rfl, rfl⟩
    · have before : e < s.next := by omega
      rw [old same, oldPid same]
      refine (h.entry e before).main (h.all_created (by simp [idle]) before) ?_ (by simp [idle])
      intro _ todo
      rw [idle] at todo
      exact todo.elim
  · intro e₁ mem₁ e₂ mem₂ samePid
    change (s.addJob pid).pid e₁ = (s.addJob pid).pid e₂ at samePid
    have fresh {e : Nat} (mem : e ∈ s.table) : e ≠ s.next := (h.born mem).ne
    rcases member mem₁ with mem₁ | rfl <;> rcases member mem₂ with mem₂ | rfl
    · rw [oldPid (fresh mem₁), oldPid (fresh mem₂)] at samePid
      exact h.pids e₁ mem₁ e₂ mem₂ samePid
    · rw [oldPid (fresh mem₁), newPid] at samePid
      exact absurd samePid (State.getJob_none unused mem₁)
    · rw [oldPid (fresh mem₂), newPid] at samePid
      exact absurd samePid.symm (State.getJob_none unused mem₂)
    · rfl

/-- The thread of a job that was just added starts. -/
theorem State.Inv.create {s : State} (h : s.Inv) {e : Nat} (at_ : s.main = .create e) :
    ((s.setHandler e .init).setMain .idle).Inv := by
  have ok := h.mainOk
  rw [at_] at ok
  obtain ⟨born, absent⟩ := ok
  have entry : (s.handler e).Owns s.main (s.pid e) e (s.marks e) := h.entry e born
  rw [absent] at entry
  have kept {e' : Nat} (other : e' ≠ e) : (s.setHandler e .init).handler e' = s.handler e' :=
    Function.update_of_ne other _ _
  refine ⟨h.fresh, ?_, ?_, h.pids, trivial⟩
  · intro e' unborn
    change s.next ≤ e' at unborn
    change (s.setHandler e .init).handler e' = _ ∧ s.marks e' = _
    rw [kept (by omega)]
    exact h.unborn e' unborn
  · intro e' born'
    change ((s.setHandler e .init).handler e').Owns .idle (s.pid e') e' (s.marks e')
    by_cases same : e' = e
    · subst same
      have started : (s.setHandler e' .init).handler e' = .init := Function.update_self ..
      rw [started]
      exact entry.1
    · rw [kept same]
      have before : (s.handler e').Owns s.main (s.pid e') e' (s.marks e') := h.entry e' born'
      refine before.main ?_ ?_ (by simp [at_])
      · intro absent'
        rw [absent', at_] at before
        exact same (Main.create.inj before.2).symm
      · intro _ todo
        rw [at_] at todo
        exact todo.elim

/-- The main loop looks up the job of a client that sent a signal. -/
theorem State.Inv.signal {s : State} (h : s.Inv) (idle : s.main = .idle) (pid signum : Nat) :
    (s.walk.setMain (match s.getJob pid with
      | none => .idle
      | some e => .kill e pid signum)).Inv := by
  rw [h.walk_eq]
  refine h.setMain (by simp [idle]) ?_ (by simp [idle]) ?_
  · intro e _ todo
    rw [idle] at todo
    exact todo.elim
  · cases found : s.getJob pid with
    | none => trivial
    | some e =>
        obtain ⟨linked, rfl⟩ := State.getJob_some found
        exact ⟨rfl, fun e' linked' same => h.pids e' linked' e linked same⟩

/-- The main loop inside a signal message. -/
theorem mainStep_inv {s s' : State} (h : s.Inv) (guard : Safe s .main)
    (hstep : mainStep s = some s') : s'.Inv := by
  have ok := h.mainOk
  unfold mainStep at hstep
  change s.main.readsLive s.frees = true at guard
  cases at_ : s.main with
  | idle => simp [at_] at hstep
  | create e => simp [at_] at hstep
  | kill e pid signum =>
      simp only [at_] at hstep guard ok
      cases hstep
      rw [State.Inv.touch_eq (by simpa [Main.readsLive] using guard)]
      have moved : (s.setMain (.join e pid signum)).Inv := by
        refine h.setMain (by simp [at_]) ?_ (by simp [at_]) ok
        intro e' _ todo
        rw [at_] at todo
        exact todo.elim
      exact ⟨moved.fresh, moved.unborn, moved.entry, moved.pids, moved.mainOk⟩
  | join e pid signum =>
      simp only [at_] at hstep guard ok
      cases hstep
      rw [State.Inv.touch_eq (by simpa [Main.readsLive] using guard)]
      refine h.setMain (by simp [at_]) ?_ (by simp [at_]) ok
      intro e' _ todo
      rw [at_] at todo
      exact todo
  | joining t pid signum =>
      simp only [at_] at hstep ok
      split at hstep
      · rename_i returned
        cases hstep
        refine h.setMain (by simp [at_]) ?_ (by simp [at_]) ?_
        · intro e _ todo
          rw [at_] at todo
          obtain ⟨rfl, deletes⟩ := todo
          rw [if_pos deletes]
          exact ok.1
        · split
          · intro e linked samePid
            rw [ok.2 e linked samePid]
            exact returned
          · trivial
      · cases hstep
  | delGet pid =>
      simp only [at_] at hstep ok
      cases hstep
      rw [h.walk_eq]
      refine h.setMain (by simp [at_]) ?_ (by simp [at_]) ?_
      · -- A job that waits for its deletion is in the table, so the look-up finds it.
        intro e marks todo
        rw [at_] at todo
        have samePid : pid = s.pid e := todo
        rw [samePid, h.getJob_eq (State.mem_of_marks marks)]
        exact rfl
      · cases found : s.getJob pid with
        | none => trivial
        | some e =>
            obtain ⟨linked, samePid⟩ := State.getJob_some found
            exact ⟨ok e linked samePid, h.linked linked⟩
  | unlink e =>
      simp only [at_] at hstep ok
      cases hstep
      have born : e < s.next := h.created (by simp [ok.1])
      have unfreed : s.frees e = 0 := (Prod.mk.inj (Prod.mk.inj ok.2).2).2
      have cut := s.marks_listDel_self e ok.2
      refine h.setMain_job (e := e) (by simp [at_]) ?_ (by simp [at_]) ?_ rfl rfl rfl
        List.erase_subset (fun e' other => s.marks_listDel_other e e' other) born ?_ ?_
      · intro e' todo
        rw [at_] at todo
        exact todo.symm
      · simp [State.listDel, State.touch, unfreed]
      · change (s.handler e).Owns (.free e) _ e ((s.listDel e).marks e)
        rw [ok.1, cut]
        exact .inr (.inr ⟨rfl, rfl⟩)
      · exact ⟨ok.1, cut⟩
  | free e =>
      simp only [at_] at hstep ok
      cases hstep
      have born : e < s.next := h.created (by simp [ok.1])
      refine h.setMain_job (e := e) (by simp [at_]) ?_ ?_ rfl rfl rfl rfl
        (fun _ mem => mem) (fun e' other => s.marks_free_other e e' other) born ?_ trivial
      · intro e' todo
        rw [at_] at todo
        exact todo.elim
      · intro e' same
        rw [at_] at same
        exact (Main.free.inj same).symm
      · change (s.handler e).Owns .idle _ e ((s.free e).marks e)
        rw [ok.1, s.marks_free_self e ok.2]
        exact .inl rfl

/-- A handler inside `unvme_del_job`. -/
theorem handlerStep_inv {s s' : State} {t : Nat} (h : s.Inv)
    (hstep : handlerStep s t = some s') : s'.Inv := by
  unfold handlerStep at hstep
  have kept {s : State} {x : Handler} {e : Nat} (other : e ≠ t) :
      (s.setHandler t x).handler e = s.handler e := Function.update_of_ne other _ _
  have moved {s : State} {x : Handler} : (s.setHandler t x).handler t = x := Function.update_self ..
  cases at_ : s.handler t with
  | absent => simp [at_] at hstep
  | init => simp [at_] at hstep
  | run => simp [at_] at hstep
  | returned => simp [at_] at hstep
  | exitJob =>
      simp only [at_] at hstep
      cases hstep
      have marks : s.marks t = (1, 0, 0) := h.owns at_ (by simp)
      rw [h.walk_eq, h.getJob_eq (State.mem_of_marks marks)]
      refine h.setHandler (t := t) (by simp [at_]) (by simp [at_]) rfl rfl rfl rfl
        (fun _ mem => mem) (fun e other => ⟨kept other, rfl⟩) ?_
      unfold State.Entry
      rw [moved]
      exact ⟨rfl, marks⟩
  | unlink e =>
      simp only [at_] at hstep
      cases hstep
      obtain ⟨rfl, marks⟩ := h.owns at_ (by simp)
      have unfreed : s.frees e = 0 := (Prod.mk.inj (Prod.mk.inj marks).2).2
      refine h.setHandler (t := e) (by simp [at_]) (by simp [at_]) ?_ rfl rfl rfl
        List.erase_subset (fun e' other => ⟨kept other, s.marks_listDel_other e e' other⟩) ?_
      · simp [State.setHandler, State.listDel, State.touch, unfreed]
      · unfold State.Entry
        rw [moved]
        exact ⟨rfl, s.marks_listDel_self e marks⟩
  | free e =>
      simp only [at_] at hstep
      cases hstep
      obtain ⟨rfl, marks⟩ := h.owns at_ (by simp)
      refine h.setHandler (t := e) (by simp [at_]) (by simp [at_]) rfl rfl rfl rfl
        (fun _ mem => mem) (fun e' other => ⟨kept other, s.marks_free_other e e' other⟩) ?_
      unfold State.Entry
      rw [moved]
      exact .inl (s.marks_free_self e marks)

/-- A handler takes a signal. -/
theorem deliverStep_inv {s s' : State} {t : Nat} (h : s.Inv) (guard : Safe s (.deliver t))
    (hstep : deliverStep s t = some s') : s'.Inv := by
  unfold deliverStep at hstep
  split at hstep
  · have kept {s : State} {x : Handler} {e : Nat} (other : e ≠ t) :
        (s.setHandler t x).handler e = s.handler e := Function.update_of_ne other _ _
    have moved {s : State} {x : Handler} : (s.setHandler t x).handler t = x :=
      Function.update_self ..
    -- From before the `list_del` the handler starts over.
    have again (there : s.handler t ≠ .absent) (running : s.handler t ≠ .returned)
        (marks : s.marks t = (1, 0, 0)) :
        ({ s with pending := Function.update s.pending t false }.setHandler t .exitJob).Inv := by
      refine h.setHandler (t := t) there running rfl rfl rfl rfl (fun _ mem => mem)
        (fun e other => ⟨kept other, rfl⟩) ?_
      unfold State.Entry
      rw [moved]
      exact marks
    change (s.handler t).canExit (s.main.joins t) = true at guard
    cases at_ : s.handler t with
    | absent => simp [at_] at hstep
    | returned => simp [at_] at hstep
    | init =>
        simp only [at_] at hstep guard
        cases hstep
        refine h.setHandler (t := t) (by simp [at_]) (by simp [at_]) rfl rfl rfl rfl
          (fun _ mem => mem) (fun e other => ⟨kept other, rfl⟩) ?_
        unfold State.Entry
        rw [moved]
        refine .inr (.inl ⟨h.owns at_ (by simp), ?_⟩)
        change s.main.Deletes (s.pid t) t
        cases main : s.main <;> simp_all [Handler.canExit, Main.joins, Main.Deletes]
    | run =>
        simp only [at_] at hstep
        cases hstep
        exact again (by simp [at_]) (by simp [at_]) (h.owns at_ (by simp))
    | exitJob =>
        simp only [at_] at hstep
        cases hstep
        exact again (by simp [at_]) (by simp [at_]) (h.owns at_ (by simp))
    | unlink e =>
        simp only [at_] at hstep
        cases hstep
        exact again (by simp [at_]) (by simp [at_]) (h.owns at_ (by simp)).2
    | free e =>
        rw [at_] at guard
        cases guard
  · cases hstep

/-- **Step lemma.** A safe step keeps the invariant. -/
theorem step_inv {s s' : State} {a : Act} (h : s.Inv) (guard : Safe s a)
    (hstep : step s a = some s') : s'.Inv := by
  have kept {t e : Nat} {x : Handler} (other : e ≠ t) :
      (s.setHandler t x).handler e = s.handler e := Function.update_of_ne other _ _
  have moved {t : Nat} {x : Handler} : (s.setHandler t x).handler t = x := Function.update_self ..
  cases a with
  | recvNormal pid =>
      simp only [step] at hstep
      split at hstep
      · rename_i idle
        cases hstep
        exact h.addJob idle guard
      · cases hstep
  | create ok =>
      simp only [step] at hstep
      split at hstep
      · rename_i e at_
        have started : ok = true := guard
        cases hstep
        have absent := h.mainOk
        rw [at_] at absent
        have marks : s.marks e = (1, 0, 0) := by
          have entry := h.entry e absent.1
          unfold State.Entry at entry
          rw [absent.2] at entry
          exact entry.1
        rw [State.Inv.touch_eq (Prod.mk.inj (Prod.mk.inj marks).2).2, started]
        exact h.create at_
      · cases hstep
  | recvSignal pid signum =>
      simp only [step] at hstep
      split at hstep
      · rename_i idle
        cases hstep
        exact h.signal idle pid signum
      · cases hstep
  | main => exact mainStep_inv h guard hstep
  | init t ok =>
      simp only [step] at hstep
      split at hstep
      · rename_i at_
        have initialised : ok = true := guard
        have marks : s.marks t = (1, 0, 0) := h.owns at_ (by simp)
        cases hstep
        refine h.setHandler (t := t) (by simp [at_]) (by simp [at_]) rfl rfl rfl rfl
          (fun _ mem => mem) (fun e other => ⟨kept other, rfl⟩) ?_
        unfold State.Entry
        rw [moved, initialised]
        exact marks
      · cases hstep
  | finish t =>
      simp only [step] at hstep
      split at hstep
      · rename_i at_
        have marks : s.marks t = (1, 0, 0) := h.owns at_ (by simp)
        cases hstep
        refine h.setHandler (t := t) (by simp [at_]) (by simp [at_]) rfl rfl rfl rfl
          (fun _ mem => mem) (fun e other => ⟨kept other, rfl⟩) ?_
        unfold State.Entry
        rw [moved]
        exact marks
      · cases hstep
  | handler t => exact handlerStep_inv h hstep
  | deliver t => exact deliverStep_inv h guard hstep

/-! ### Runs -/

/-- A job was unlinked and freed at most once, and is gone once its thread has returned and
the main loop is idle. -/
theorem State.Inv.deleted {s : State} (h : s.Inv) (e : Nat) :
    s.unlinks e ≤ 1 ∧ s.frees e ≤ 1 ∧ (s.main = .idle → e < s.next →
      s.handler e = .returned ∨ s.handler e = .absent → s.marks e = (0, 1, 1)) := by
  have small {n k l : Nat} (marks : s.marks e = (n, k, l)) (hk : k ≤ 1) (hl : l ≤ 1) :
      s.unlinks e ≤ 1 ∧ s.frees e ≤ 1 := by
    simp only [State.marks, Prod.mk.injEq] at marks
    omega
  by_cases born : e < s.next
  · have entry := h.entry e born
    unfold State.Entry at entry
    cases at_ : s.handler e <;> rw [at_] at entry
    case absent =>
      refine and_assoc.mp ⟨small entry.1 (by decide) (by decide), ?_⟩
      intro idle
      rw [entry.2] at idle
      cases idle
    case returned =>
      rcases entry with gone | ⟨marks, todo⟩ | ⟨marks, cut⟩
      · exact and_assoc.mp ⟨small gone (by decide) (by decide), fun _ _ _ => gone⟩
      · refine and_assoc.mp ⟨small marks (by decide) (by decide), ?_⟩
        intro idle
        rw [idle] at todo
        exact todo.elim
      · refine and_assoc.mp ⟨small marks (by decide) (by decide), ?_⟩
        intro idle
        rw [idle] at cut
        cases cut
    case unlink => exact and_assoc.mp ⟨small entry.2 (by decide) (by decide), by simp⟩
    case free => exact and_assoc.mp ⟨small entry.2 (by decide) (by decide), by simp⟩
    all_goals exact and_assoc.mp ⟨small entry (by decide) (by decide), by simp⟩
  · have none := (h.unborn e (by omega)).2
    exact and_assoc.mp ⟨small none (by decide) (by decide), fun _ born' => absurd born' born⟩

theorem State.Inv.sound {s : State} (h : s.Inv) : s.Sound := by
  refine ⟨h.fresh, fun e => (h.deleted e).1, fun e => (h.deleted e).2.1, ?_⟩
  intro idle returned
  have gone {e : Nat} (born : e < s.next) : s.marks e = (0, 1, 1) :=
    (h.deleted e).2.2 idle born (returned e born)
  constructor
  · rw [List.eq_nil_iff_forall_not_mem]
    intro e linked
    have once := h.linked linked
    rw [gone (h.born linked)] at once
    cases once
  · intro e born
    exact Prod.mk.inj (Prod.mk.inj (gone born)).2

/-- **Job table.** -/
theorem jobs_sound {as : List Act} {s : State} (safe : Guarded step Safe start as)
    (hrun : run step start as = some s) : s.Sound :=
  (run_inv (fun _ _ _ h guard hstep => step_inv h guard hstep) start_inv safe hrun).sound

/-- A job runs, is signalled by its client, leaves through `exit`, and the main loop finds
nothing left to delete. -/
def signalled : List Act :=
  [.recvNormal 7, .create true, .init 0 true, .recvSignal 7 sigterm, .main, .main, .deliver 0,
    .handler 0, .handler 0, .handler 0, .main, .main]

theorem signalled_sound : ∃ s, run step start signalled = some s ∧ s.next = 1 ∧ s.Sound := by
  have safe : Guarded step Safe start signalled := by decide
  exact ⟨_, rfl, rfl, jobs_sound safe rfl⟩

/-- The handler returns by itself right after the main loop has looked up its job for a
signal, and `pthread_kill` reads `job->thread` from freed memory. -/
def racing : List Act :=
  [.recvNormal 7, .create true, .init 0 true, .finish 0, .recvSignal 7 sigterm, .handler 0,
    .handler 0, .handler 0, .main]

theorem signal_reads_freed_job : ¬ ∀ as s, run step start as = some s → s.Sound := by
  intro all
  have sound := all racing _ rfl
  exact absurd sound.fresh (by decide)

end Unvmed.Jobs
