import Mathlib
import Unvmed.Lib.Run
import Unvmed.Daemon.JobThreads

/-!
The exchange between the clients and the daemon (`src/unvme.c`, `src/unvmed.c`).

Both sides have a datagram socket. A client binds a path that is named after its pid, sends one
request with its arguments and waits for the reply, or returns before that with an error of its own;
each signal it takes sends another request from the signal's handler, which waits for a reply as
well and closes the socket after it. The daemon answers a client's request from the thread of its
job, and a signal only if it finds no job for the client. A reply goes to the socket that is bound
to the client's path at that time, and is lost if there is none. The daemon's part is `Jobs.step`,
and what it adds here are the messages.

The numbers of the clients are never used again, their pids may be: `pid` says which one the
system gives to a client, and two processes have the same only one after the other.

* `step_cases`: a step is a move of one client (`Client.Move`), a step of the daemon, or its end.
* `Moved.bound`, `jobStep_bound`: a path leads to the open socket of the one process that has the
  pid.
-/

namespace Unvmed.Session

open Lib

/-- `struct unvme_msg` to the daemon. -/
structure Request where
  client : Nat
  signum : Nat
  deriving DecidableEq, Repr

/-- `struct unvme_msg` to a client; `client` and `signum` are of the request it answers. -/
structure Reply where
  client : Nat
  signum : Nat
  ret : Int
  deriving DecidableEq, Repr

/-- Where `main` of a client stands. -/
inductive Phase where
  /-- Before `unvme_socket_get`. -/
  | start
  /-- The socket is bound. -/
  | bound
  /-- The request is sent, and a signal still kills the process. -/
  | sent
  /-- In `unvme_recv_msg`. -/
  | waiting
  /-- `unvme_recv_msg` has returned; `ret` is what `main` is going to return. -/
  | received (ret : Int)
  /-- `unvme_cleanup` is through. -/
  | cleaned (ret : Int)
  | exited (ret : Option Int)
  /-- `main` has returned without a request. -/
  | refused (ret : Int)
  deriving DecidableEq, Repr

/-- Where an activation of `unvme_exit` stands. -/
inductive Frame where
  | sending
  | waiting
  | closing
  deriving DecidableEq, Repr

structure Client where
  phase : Phase
  /-- The activations of `unvme_exit` with their signals, the innermost first. -/
  frames : List (Nat × Frame)
  /-- The socket is not closed. -/
  opened : Bool
  /-- What the socket has received. -/
  inbox : List Reply
  /-- Some reply was taken from the socket. -/
  taken : Bool
  /-- `unvme_exit` was called. -/
  signalled : Bool
  deriving DecidableEq, Repr

/-- The process is there. -/
def Client.live (c : Client) : Bool :=
  match c.phase with
  | .start | .exited _ | .refused _ => false
  | .bound | .sent | .waiting | .received _ | .cleaned _ => true

/-- The handlers of the signals are installed. -/
def Client.installed (c : Client) : Bool :=
  match c.phase with
  | .waiting | .received _ | .cleaned _ => true
  | .start | .bound | .sent | .exited _ | .refused _ => false

def Client.close (c : Client) : Client := { c with opened := false, inbox := [] }

structure State where
  client : Nat → Client
  /-- The process that has the pid. -/
  owner : Nat → Option Nat
  /-- The client whose socket is bound to the path of the pid. -/
  path : Nat → Option Nat
  /-- The requests in the daemon's socket. -/
  inbox : List Request
  jobs : Jobs.State
  /-- The client whose request a job is for. -/
  origin : Nat → Nat
  /-- The return values for the requests of a client, as they were sent. -/
  results : Nat → List Int
  /-- The daemon runs. -/
  alive : Bool

inductive Act where
  /-- `main` returns before it has a socket: with 1 if `unvme_is_daemon_running` fails, with an
  `errno` if `unvme_check_ver` or `unvme_socket_get` does. -/
  | refuse (c : Nat) (ret : Int)
  /-- `unvme_socket_get` -/
  | connect (c : Nat)
  /-- `unvme_msg_init` or `unvme_send_msg` fails. -/
  | fail (c : Nat)
  /-- `unvme_send_msg` in `main`. -/
  | send (c : Nat)
  /-- `signal(SIGINT, unvme_exit)` and `signal(SIGTERM, unvme_exit)`. -/
  | install (c : Nat)
  /-- A signal arrives. -/
  | signal (c signum : Nat)
  /-- The next step of the innermost `unvme_exit`. -/
  | frame (c : Nat)
  /-- `unvme_recv_msg` of `main` returns. -/
  | recv (c : Nat)
  /-- `unvme_cleanup` -/
  | cleanup (c : Nat)
  /-- The process ends. -/
  | exit (c : Nat)
  /-- The process is killed. -/
  | kill (c : Nat)
  /-- A step of the daemon; `ret` is the return value if a handler ends. -/
  | job (a : Jobs.Act) (ret : Int)
  /-- A signal that was sent to thread `t` has its default action, or ends the daemon. -/
  | die (t : Nat)
  deriving DecidableEq, Repr

/-- `-ENOMEM` -/
def enomem : Int := -12

def State.setClient (s : State) (c : Nat) (x : Client) : State :=
  { s with client := Function.update s.client c x }

/-- The socket of the client is closed and its path unlinked. -/
def State.close (s : State) (p c : Nat) (x : Client) : State :=
  { s.setClient c x.close with path := Function.update s.path p none }

/-- A request goes to the daemon, if both are there. -/
def State.request (s : State) (c signum : Nat) : State :=
  if s.alive && (s.client c).opened then { s with inbox := s.inbox ++ [⟨c, signum⟩] } else s

/-- `unvme_send_msg` of the daemon. -/
def State.reply (s : State) (p : Nat) (r : Reply) : State :=
  match s.path p with
  | none => s
  | some c =>
      s.setClient c { s.client c with inbox := (s.client c).inbox ++ [r] }

/-- The thread of job `t` sends its result. -/
def State.answer (s : State) (t : Nat) (ret : Int) : State :=
  let c := s.origin t
  { s with results := Function.update s.results c (s.results c ++ [ret]) }.reply (s.jobs.pid t)
    ⟨c, 0, ret⟩

section Steps

variable (pid : Nat → Nat)

/-- The next step of the innermost `unvme_exit`. A closed socket makes `unvme_recv_msg` return. -/
def frameStep (s : State) (c : Nat) : Option State :=
  let x := s.client c
  match x.frames with
  | [] => none
  | (n, .sending) :: rest =>
      some ((s.request c n).setClient c { x with frames := (n, .waiting) :: rest })
  | (n, .waiting) :: rest =>
      if x.opened then
        match x.inbox with
        | [] => none
        | _ :: replies =>
            some (s.setClient c { x with
              frames := (n, .closing) :: rest, inbox := replies, taken := true })
      else some (s.setClient c { x with frames := (n, .closing) :: rest })
  | (_, .closing) :: rest => some (s.close (pid c) c { x with frames := rest })

/-- `unvme_recv_msg` of `main` returns. -/
def recvStep (s : State) (c : Nat) : Option State :=
  let x := s.client c
  if x.phase = .waiting ∧ x.frames = [] then
    if x.opened then
      match x.inbox with
      | [] => none
      | r :: replies =>
          some (s.setClient c { x with phase := .received r.ret, inbox := replies, taken := true })
    else some (s.setClient c { x with phase := .received (-1) })
  else none

/-- What the daemon takes from its socket. -/
def takeRequest (s : State) : Jobs.Act → Option (Option Request × List Request)
  | .recvNormal p => match s.inbox with
      | ⟨c, 0⟩ :: rest => if pid c = p then some (some ⟨c, 0⟩, rest) else none
      | _ => none
  | .recvSignal p n => match s.inbox with
      | ⟨c, m + 1⟩ :: rest =>
          if pid c = p ∧ m + 1 = n then some (some ⟨c, m + 1⟩, rest) else none
      | _ => none
  | _ => some (none, s.inbox)

/-- What the daemon sends in its step. -/
def sends (s : State) (a : Jobs.Act) (ret : Int) (r : Option Request) : State :=
  match a, r with
  | .recvNormal _, some r => { s with origin := Function.update s.origin s.jobs.next r.client }
  | .recvSignal p _, some r =>
      if s.jobs.getJob p = none then s.reply p ⟨r.client, r.signum, 0⟩ else s
  | .init t false, _ => s.answer t enomem
  | .finish t, _ => s.answer t ret
  | .deliver t, _ => if s.jobs.handler t = .init then s else s.answer t ret
  | _, _ => s

def jobStep (s : State) (a : Jobs.Act) (ret : Int) : Option State :=
  if s.alive then
    match takeRequest pid s a, Jobs.step s.jobs a with
    | some (r, rest), some jobs => some { sends s a ret r with inbox := rest, jobs := jobs }
    | _, _ => none
  else none

/-- `main` returns -1 after `unvme_socket_get`. -/
def State.giveUp (s : State) (c : Nat) : State :=
  { s.close (pid c) c { s.client c with phase := .refused (-1) } with
    owner := Function.update s.owner (pid c) none }

def step (s : State) : Act → Option State
  | .refuse c ret =>
      if (s.client c).phase = .start ∧ s.owner (pid c) = none then
        some (s.setClient c { s.client c with phase := .refused ret })
      else none
  | .fail c => if (s.client c).phase = .bound then some (s.giveUp pid c) else none
  | .connect c =>
      if (s.client c).phase = .start ∧ s.owner (pid c) = none then
        some { s.setClient c ⟨.bound, [], true, [], false, false⟩ with
          owner := Function.update s.owner (pid c) (some c)
          path := Function.update s.path (pid c) (some c) }
      else none
  | .send c =>
      let x := s.client c
      if x.phase = .bound then
        if s.alive then some ((s.request c 0).setClient c { x with phase := .sent })
        else some (s.giveUp pid c)
      else none
  | .install c =>
      let x := s.client c
      if x.phase = .sent then some (s.setClient c { x with phase := .waiting }) else none
  | .signal c n =>
      let x := s.client c
      -- A signal is blocked while its own handler runs.
      if x.installed ∧ (n = Jobs.sigint ∨ n = Jobs.sigterm) ∧ n ∉ x.frames.map Prod.fst then
        some (s.setClient c { x with frames := (n, .sending) :: x.frames, signalled := true })
      else none
  | .frame c => frameStep pid s c
  | .recv c => recvStep s c
  | .cleanup c =>
      let x := s.client c
      match x.phase, x.frames with
      | .received ret, [] => some (s.close (pid c) c { x with phase := .cleaned ret })
      | _, _ => none
  | .exit c =>
      let x := s.client c
      match x.phase, x.frames with
      -- `unvme_cleanup` runs once more.
      | .cleaned ret, [] => some { s.close (pid c) c { x with phase := .exited (some ret) } with
          owner := Function.update s.owner (pid c) none }
      | _, _ => none
  | .kill c =>
      let x := s.client c
      if x.live then
        some { s.close (pid c) c { x with phase := .exited none, frames := [] } with
          owner := Function.update s.owner (pid c) none }
      else none
  | .job a ret => jobStep pid s a ret
  | .die t =>
      if s.jobs.pending t ∧ s.jobs.handler t ≠ .absent ∧ s.jobs.handler t ≠ .returned then
        some { s with alive := false }
      else none

end Steps

/-- The daemon has just started. -/
def start : State :=
  ⟨fun _ => ⟨.start, [], false, [], false, false⟩, fun _ => none, fun _ => none, [], Jobs.start,
    fun _ => 0, fun _ => [], true⟩

/-! ### What a client does -/

/-- The moves of a client; the last argument is the signal number of the request it sends. -/
inductive Client.Move (alive : Bool) (x : Client) : Client → Option Nat → Prop where
  | refuse (ret : Int) (phase : x.phase = .start) :
      Move alive x { x with phase := .refused ret } none
  | connect (phase : x.phase = .start) : Move alive x ⟨.bound, [], true, [], false, false⟩ none
  | send (phase : x.phase = .bound) (daemon : alive = true) :
      Move alive x { x with phase := .sent } (some 0)
  | giveUp (phase : x.phase = .bound) :
      Move alive x { x with phase := .refused (-1) }.close none
  | install (phase : x.phase = .sent) : Move alive x { x with phase := .waiting } none
  | signal (n : Nat) (installed : x.installed = true) (nonzero : n ≠ 0) :
      Move alive x { x with frames := (n, .sending) :: x.frames, signalled := true } none
  | sending {n : Nat} {rest : List (Nat × Frame)} (frames : x.frames = (n, .sending) :: rest) :
      Move alive x { x with frames := (n, .waiting) :: rest } (some n)
  | take {n : Nat} {rest : List (Nat × Frame)} {r : Reply} {replies : List Reply}
      (frames : x.frames = (n, .waiting) :: rest) (opened : x.opened = true)
      (inbox : x.inbox = r :: replies) :
      Move alive x { x with frames := (n, .closing) :: rest, inbox := replies, taken := true } none
  | takeFails {n : Nat} {rest : List (Nat × Frame)} (frames : x.frames = (n, .waiting) :: rest)
      (closed : x.opened = false) : Move alive x { x with frames := (n, .closing) :: rest } none
  | close {n : Nat} {rest : List (Nat × Frame)} (frames : x.frames = (n, .closing) :: rest) :
      Move alive x { x with frames := rest }.close none
  | recv {r : Reply} {replies : List Reply} (phase : x.phase = .waiting) (frames : x.frames = [])
      (opened : x.opened = true) (inbox : x.inbox = r :: replies) :
      Move alive x { x with phase := .received r.ret, inbox := replies, taken := true } none
  | recvFails (phase : x.phase = .waiting) (frames : x.frames = []) (closed : x.opened = false) :
      Move alive x { x with phase := .received (-1) } none
  | cleanup {ret : Int} (phase : x.phase = .received ret) (frames : x.frames = []) :
      Move alive x { x with phase := .cleaned ret }.close none
  | exit {ret : Int} (phase : x.phase = .cleaned ret) (frames : x.frames = []) :
      Move alive x { x with phase := .exited (some ret) }.close none
  | kill (live : x.live = true) :
      Move alive x { x with phase := .exited none, frames := [] }.close none

/-- The handlers of a process run for its signals. -/
structure Client.Ok (x : Client) : Prop where
  frames : x.live = false → x.frames = []
  early : x.phase = .bound ∨ x.phase = .sent → x.frames = [] ∧ x.taken = false
  signals : ∀ f ∈ x.frames, f.1 ≠ 0
  opened : x.opened = true → x.live = true

theorem Client.Ok.live {x : Client} (ok : x.Ok) {f : Nat × Frame} {rest : List (Nat × Frame)}
    (frames : x.frames = f :: rest) : x.live = true := by
  by_contra dead
  have none_ := ok.frames (Bool.eq_false_iff.mpr dead)
  rw [frames] at none_
  cases none_

theorem Client.live_of_installed {x : Client} (installed : x.installed = true) :
    x.live = true ∧ ¬ (x.phase = .bound ∨ x.phase = .sent) := by
  unfold Client.installed at installed
  unfold Client.live
  cases at_ : x.phase <;> simp_all

theorem Client.Ok.late {x : Client} (ok : x.Ok) {f : Nat × Frame} {rest : List (Nat × Frame)}
    (frames : x.frames = f :: rest) : ¬ (x.phase = .bound ∨ x.phase = .sent) := by
  intro early
  have none_ := (ok.early early).1
  rw [frames] at none_
  cases none_

/-- Only the start of a client makes a process, and every other move is one of a process. -/
theorem Client.Move.live {alive : Bool} {x y : Client} {sent : Option Nat} (ok : x.Ok)
    (move : x.Move alive y sent) : x.live = true ∨ x.phase = .start := by
  cases move with
  | refuse _ phase | connect phase => exact .inr phase
  | send phase | giveUp phase => exact .inl (by simp [Client.live, phase])
  | install phase => exact .inl (by simp [Client.live, phase])
  | signal n installed => exact .inl (Client.live_of_installed installed).1
  | sending frames | take frames | takeFails frames | close frames =>
      exact .inl (ok.live frames)
  | recv phase | recvFails phase | cleanup phase | exit phase =>
      exact .inl (by simp [Client.live, phase])
  | kill live => exact .inl live

theorem Client.Move.ok {alive : Bool} {x y : Client} {sent : Option Nat} (ok : x.Ok)
    (move : x.Move alive y sent) : y.Ok := by
  -- The signals of the handlers that run on are those of before.
  have signals {n : Nat} {f g : Frame} {rest : List (Nat × Frame)}
      (frames : x.frames = (n, f) :: rest) : ∀ h ∈ (n, g) :: rest, h.1 ≠ 0 := by
    have before := ok.signals
    rw [frames] at before
    intro h mem
    rcases List.mem_cons.mp mem with rfl | mem
    · exact before (n, f) List.mem_cons_self
    · exact before h (List.mem_cons_of_mem _ mem)
  -- A process that runs on has all the handlers it wants.
  have stays {y : Client} (live : x.live = true) (late : ¬ (x.phase = .bound ∨ x.phase = .sent))
      (phase : y.phase = x.phase) (signals : ∀ f ∈ y.frames, f.1 ≠ 0) : y.Ok := by
    have same : y.live = true := by
      unfold Client.live at live ⊢
      rw [phase]
      exact live
    refine ⟨?_, ?_, signals, fun _ => same⟩
    · intro dead
      rw [same] at dead
      cases dead
    · intro early
      rw [phase] at early
      exact absurd early late
  cases move with
  | connect phase =>
      refine ⟨fun _ => rfl, fun _ => ⟨rfl, rfl⟩, ?_, fun _ => rfl⟩
      intro f mem
      cases mem
  | send phase daemon =>
      exact ⟨by simp [Client.live], fun _ => ok.early (.inl phase), ok.signals, fun _ => rfl⟩
  | giveUp phase =>
      refine ⟨fun _ => (ok.early (.inl phase)).1, ?_, ok.signals, by simp [Client.close]⟩
      rintro (phase | phase) <;> cases phase
  | refuse ret phase =>
      have absent : x.live = false := by simp [Client.live, phase]
      refine ⟨fun _ => ok.frames absent, ?_, ok.signals, fun opened => ?_⟩
      · rintro (phase | phase) <;> cases phase
      · cases absent.symm.trans (ok.opened opened)
  | install phase =>
      refine ⟨by simp [Client.live], ?_, ok.signals, fun _ => rfl⟩
      rintro (phase | phase) <;> cases phase
  | signal n installed nonzero =>
      obtain ⟨live, late⟩ := Client.live_of_installed installed
      refine stays live late rfl ?_
      intro f mem
      rcases List.mem_cons.mp mem with rfl | mem
      · exact nonzero
      · exact ok.signals f mem
  | sending frames => exact stays (ok.live frames) (ok.late frames) rfl (signals frames)
  | take frames => exact stays (ok.live frames) (ok.late frames) rfl (signals frames)
  | takeFails frames => exact stays (ok.live frames) (ok.late frames) rfl (signals frames)
  | close frames =>
      refine stays (ok.live frames) (ok.late frames) rfl ?_
      have before := ok.signals
      rw [frames] at before
      intro f mem
      exact before f (List.mem_cons_of_mem _ mem)
  | recv phase frames =>
      refine ⟨by simp [Client.live], ?_, ok.signals, fun _ => rfl⟩
      rintro (phase | phase) <;> cases phase
  | recvFails phase frames =>
      refine ⟨by simp [Client.live], ?_, ok.signals, fun _ => rfl⟩
      rintro (phase | phase) <;> cases phase
  | cleanup phase frames =>
      refine ⟨by simp [Client.live, Client.close], ?_, ok.signals, by simp [Client.close]⟩
      rintro (phase | phase) <;> cases phase
  | exit phase frames =>
      refine ⟨fun _ => frames, ?_, ok.signals, by simp [Client.close]⟩
      rintro (phase | phase) <;> cases phase
  | kill live =>
      refine ⟨fun _ => rfl, ?_, by simp [Client.close], by simp [Client.close]⟩
      rintro (phase | phase) <;> cases phase

/-- Replies come from the daemon only, and sockets from `unvme_socket_get`. -/
theorem Client.Move.opens {alive : Bool} {x y : Client} {sent : Option Nat}
    (move : x.Move alive y sent) : x.phase = .start ∨ (y.opened = true → x.opened = true) := by
  cases move with
  | connect phase => exact .inl phase
  | giveUp | close | cleanup | exit | kill => exact .inr (by simp [Client.close])
  | refuse | send | install | signal | sending | take | takeFails | recv | recvFails =>
      exact .inr id

/-! ### What a step does -/

section Steps

variable {pid : Nat → Nat} {s s' : State} {a : Jobs.Act} {ret : Int}

/-- What client `c` sends with its move. -/
def State.sent (s : State) (c : Nat) (n : Option Nat) : List Request :=
  if s.alive && (s.client c).opened then n.toList.map fun n => ⟨c, n⟩ else []

/-- Client `c` moves. -/
structure Moved (pid : Nat → Nat) (s : State) (c : Nat) (x : Client) (n : Option Nat)
    (s' : State) : Prop where
  move : (s.client c).Move s.alive x n
  client : s'.client = Function.update s.client c x
  inbox : s'.inbox = s.inbox ++ s.sent c n
  kept : s'.jobs = s.jobs ∧ s'.origin = s.origin ∧ s'.results = s.results ∧ s'.alive = s.alive
  free : (s.client c).phase = .start → s.owner (pid c) = none
  owner : (∀ p ≠ pid c, s'.owner p = s.owner p) ∧
    (s'.owner (pid c) = (if x.live then some c else none) ∨
      s'.owner (pid c) = s.owner (pid c) ∧ (s.client c).live = true)
  path : (∀ p ≠ pid c, s'.path p = s.path p) ∧
    (s'.path (pid c) = (if x.opened then some c else none) ∨
      s'.path (pid c) = s.path (pid c) ∧ x.opened = (s.client c).opened)

/-- A client goes on with its socket as it is. -/
theorem Moved.goes (pid : Nat → Nat) {c : Nat} {x : Client} {n : Option Nat}
    (move : (s.client c).Move s.alive x n) (live : (s.client c).live = true)
    (opened : x.opened = (s.client c).opened) :
    Moved pid s c x n { s.setClient c x with inbox := s.inbox ++ s.sent c n } := by
  refine ⟨move, rfl, rfl, ⟨rfl, rfl, rfl, rfl⟩, ?_, ⟨fun _ _ => rfl, .inr ⟨rfl, live⟩⟩,
    fun _ _ => rfl, .inr ⟨rfl, opened⟩⟩
  intro phase
  rw [Client.live, phase] at live
  cases live

/-- A client closes its socket and goes on. -/
theorem Moved.closes (pid : Nat → Nat) {c : Nat} {x : Client}
    (move : (s.client c).Move s.alive x.close none)
    (live : (s.client c).live = true) : Moved pid s c x.close none (s.close (pid c) c x) := by
  refine ⟨move, rfl, ?_, ⟨rfl, rfl, rfl, rfl⟩, ?_, ⟨fun _ _ => rfl, .inr ⟨rfl, live⟩⟩,
    ⟨fun p other => Function.update_of_ne other _ _, .inl (Function.update_self ..)⟩⟩
  · simp [State.close, State.setClient, State.sent]
  · intro phase
    rw [Client.live, phase] at live
    cases live

/-- A client ends. -/
theorem Moved.ends (pid : Nat → Nat) {c : Nat} {x : Client}
    (move : (s.client c).Move s.alive x.close none)
    (live : (s.client c).live = true) (dead : x.live = false) :
    Moved pid s c x.close none
      { s.close (pid c) c x with owner := Function.update s.owner (pid c) none } := by
  have closed : x.close.live = false := dead
  refine ⟨move, rfl, ?_, ⟨rfl, rfl, rfl, rfl⟩, ?_,
    ⟨fun p other => Function.update_of_ne other _ _, .inl ?_⟩,
    ⟨fun p other => Function.update_of_ne other _ _, .inl (Function.update_self ..)⟩⟩
  · simp [State.close, State.setClient, State.sent]
  · intro phase
    rw [Client.live, phase] at live
    cases live
  · rw [closed]
    exact Function.update_self ..

/-- A move that sends nothing leaves the daemon's socket. -/
theorem sent_none (s : State) (c : Nat) : s.inbox ++ s.sent c none = s.inbox := by
  simp [State.sent]

theorem request_eq (s : State) (c n : Nat) :
    s.request c n = { s with inbox := s.inbox ++ s.sent c (some n) } := by
  unfold State.request State.sent
  split <;> simp

theorem frameStep_moved {c : Nat} (ok : (s.client c).Ok) (hstep : frameStep pid s c = some s') :
    ∃ x n, Moved pid s c x n s' ∧ (s.client c).live = true := by
  simp only [frameStep] at hstep
  split at hstep
  · cases hstep
  · rename_i n rest frames
    cases hstep
    rw [request_eq]
    exact ⟨_, _, Moved.goes pid (.sending frames) (ok.live frames) rfl, ok.live frames⟩
  · rename_i n rest frames
    have live := ok.live frames
    split at hstep
    · rename_i opened
      split at hstep
      · cases hstep
      · rename_i r replies inbox
        cases hstep
        have moved := Moved.goes pid (.take frames opened inbox) live rfl
        rw [sent_none] at moved
        exact ⟨_, _, moved, live⟩
    · rename_i closed
      cases hstep
      have moved := Moved.goes pid (.takeFails frames (Bool.eq_false_iff.mpr closed)) live rfl
      rw [sent_none] at moved
      exact ⟨_, _, moved, live⟩
  · rename_i n rest frames
    cases hstep
    exact ⟨_, _, Moved.closes pid (.close frames) (ok.live frames), ok.live frames⟩

theorem recvStep_moved {c : Nat} (hstep : recvStep s c = some s') :
    ∃ x n, Moved pid s c x n s' ∧ (s.client c).live = true := by
  simp only [recvStep] at hstep
  split at hstep
  · rename_i waits
    obtain ⟨phase, frames⟩ := waits
    have live : (s.client c).live = true := by
      simp [Client.live, phase]
    split at hstep
    · rename_i opened
      split at hstep
      · cases hstep
      · rename_i r replies inbox
        cases hstep
        have moved := Moved.goes pid (.recv phase frames opened inbox) live rfl
        rw [sent_none] at moved
        exact ⟨_, _, moved, live⟩
    · rename_i closed
      cases hstep
      have moved := Moved.goes pid (.recvFails phase frames (Bool.eq_false_iff.mpr closed)) live rfl
      rw [sent_none] at moved
      exact ⟨_, _, moved, live⟩
  · cases hstep

/-- A step is a move of one client, which has an open socket from its start only by
`unvme_socket_get`, a step of the daemon, or its end. -/
theorem step_cases {a : Act} (ok : ∀ c, (s.client c).Ok) (hstep : step pid s a = some s') :
    (∃ c x n, Moved pid s c x n s' ∧
        ((s.client c).phase = .start → x.opened = true → a = .connect c)) ∨
      (∃ b ret, a = .job b ret ∧ jobStep pid s b ret = some s') ∨
      ∃ t, a = .die t ∧ s' = { s with alive := false } := by
  -- A process that is there does not start.
  have there {c : Nat} {x : Client} (live : (s.client c).live = true)
      (phase : (s.client c).phase = .start) : x.opened = true → a = .connect c := by
    rw [Client.live, phase] at live
    cases live
  cases a with
  | refuse c ret =>
      simp only [step] at hstep
      split at hstep
      · rename_i free
        cases hstep
        obtain ⟨phase, none_⟩ := free
        refine .inl ⟨c, _, none, ⟨.refuse ret phase, rfl, (sent_none s c).symm,
          ⟨rfl, rfl, rfl, rfl⟩, fun _ => none_, ⟨fun _ _ => rfl, .inl none_⟩,
          fun _ _ => rfl, .inr ⟨rfl, rfl⟩⟩, fun _ opened => ?_⟩
        have live := (ok c).opened opened
        rw [Client.live, phase] at live
        cases live
      · cases hstep
  | fail c =>
      simp only [step] at hstep
      split at hstep
      · rename_i phase
        cases hstep
        have live : (s.client c).live = true := by
          simp [Client.live, phase]
        exact .inl ⟨c, _, _, Moved.ends pid (.giveUp phase) live rfl, there live⟩
      · cases hstep
  | connect c =>
      simp only [step] at hstep
      split at hstep
      · rename_i free
        cases hstep
        refine .inl ⟨c, _, none, ⟨.connect free.1, rfl, (sent_none s c).symm, ⟨rfl, rfl, rfl, rfl⟩,
          fun _ => free.2, ⟨?_, .inl ?_⟩, ⟨?_, .inl ?_⟩⟩, fun _ _ => rfl⟩
        · intro p other
          exact Function.update_of_ne other _ _
        · exact Function.update_self ..
        · intro p other
          exact Function.update_of_ne other _ _
        · exact Function.update_self ..
      · cases hstep
  | send c =>
      simp only [step] at hstep
      split at hstep
      · rename_i phase
        have live : (s.client c).live = true := by
          simp [Client.live, phase]
        split at hstep
        · rename_i alive
          cases hstep
          rw [request_eq]
          exact .inl ⟨c, _, _, Moved.goes pid (.send phase alive) live rfl, there live⟩
        · cases hstep
          exact .inl ⟨c, _, _, Moved.ends pid (.giveUp phase) live rfl, there live⟩
      · cases hstep
  | install c =>
      simp only [step] at hstep
      split at hstep
      · rename_i phase
        cases hstep
        have live : (s.client c).live = true := by
          simp [Client.live, phase]
        have moved := Moved.goes pid (.install phase) live rfl
        rw [sent_none] at moved
        exact .inl ⟨c, _, _, moved, there live⟩
      · cases hstep
  | signal c n =>
      simp only [step] at hstep
      split at hstep
      · rename_i taken
        cases hstep
        obtain ⟨installed, signal, -⟩ := taken
        have nonzero : n ≠ 0 := by
          rcases signal with rfl | rfl <;> decide
        have live := (Client.live_of_installed installed).1
        have moved := Moved.goes pid (.signal n installed nonzero) live rfl
        rw [sent_none] at moved
        exact .inl ⟨c, _, _, moved, there live⟩
      · cases hstep
  | frame c =>
      obtain ⟨x, n, moved, live⟩ := frameStep_moved (ok c) hstep
      exact .inl ⟨c, x, n, moved, there live⟩
  | recv c =>
      obtain ⟨x, n, moved, live⟩ := recvStep_moved hstep
      exact .inl ⟨c, x, n, moved, there live⟩
  | cleanup c =>
      simp only [step] at hstep
      split at hstep
      · rename_i ret phase frames
        cases hstep
        have live : (s.client c).live = true := by
          simp [Client.live, phase]
        exact .inl ⟨c, _, _, Moved.closes pid (.cleanup phase frames) live, there live⟩
      · cases hstep
  | exit c =>
      simp only [step] at hstep
      split at hstep
      · rename_i ret phase frames
        cases hstep
        have live : (s.client c).live = true := by
          simp [Client.live, phase]
        exact .inl ⟨c, _, _, Moved.ends pid (.exit phase frames) live rfl, there live⟩
      · cases hstep
  | kill c =>
      simp only [step] at hstep
      split at hstep
      · rename_i live
        cases hstep
        exact .inl ⟨c, _, _, Moved.ends pid (.kill live) live rfl, there live⟩
      · cases hstep
  | job b ret => exact .inr (.inl ⟨b, ret, rfl, hstep⟩)
  | die t =>
      simp only [step] at hstep
      split at hstep
      · cases hstep
        exact .inr (.inr ⟨t, rfl, rfl⟩)
      · cases hstep

/-! ### What the daemon does -/

/-- The socket receives some replies. -/
def Client.Grows (x y : Client) : Prop := ∃ more, y = { x with inbox := x.inbox ++ more }

theorem Client.Grows.refl (x : Client) : x.Grows x := ⟨[], by simp⟩

theorem setClient_self (s : State) (c : Nat) (x : Client) : (s.setClient c x).client c = x :=
  Function.update_self ..

theorem setClient_other (s : State) {c c' : Nat} (x : Client) (other : c' ≠ c) :
    (s.setClient c x).client c' = s.client c' := Function.update_of_ne other _ _

theorem reply_grows (s : State) (p : Nat) (r : Reply) (c : Nat) :
    (s.client c).Grows ((s.reply p r).client c) := by
  unfold State.reply
  cases s.path p with
  | none => exact Client.Grows.refl _
  | some c' =>
      by_cases same : c = c'
      · subst same
        exact ⟨[r], setClient_self ..⟩
      · simp only [setClient_other s _ same]
        exact Client.Grows.refl _

theorem reply_mem {p c : Nat} (bound : s.path p = some c) (r : Reply) :
    ((s.reply p r).client c).inbox ≠ [] := by
  simp [State.reply, bound, setClient_self]

theorem reply_frame (s : State) (p : Nat) (r : Reply) :
    ∃ client, s.reply p r = { s with client := client } := by
  unfold State.reply
  cases s.path p with
  | none => exact ⟨_, rfl⟩
  | some c => exact ⟨_, rfl⟩

/-- What the daemon sends changes the clients' sockets, and a command that it receives is the one
of the next job. -/
theorem sends_frame (s : State) (a : Jobs.Act) (ret : Int) (r : Option Request) :
    ∃ client results origin,
      sends s a ret r = { s with client := client, results := results, origin := origin } ∧
      (∀ c, (s.client c).Grows (client c)) ∧ ∀ t ≠ s.jobs.next, origin t = s.origin t := by
  have quiet : ∃ client results origin,
      s = { s with client := client, results := results, origin := origin } ∧
      (∀ c, (s.client c).Grows (client c)) ∧ ∀ t ≠ s.jobs.next, origin t = s.origin t :=
    ⟨s.client, s.results, s.origin, rfl, fun c => Client.Grows.refl _, fun _ _ => rfl⟩
  have answered (t : Nat) (ret : Int) : ∃ client results origin,
      s.answer t ret = { s with client := client, results := results, origin := origin } ∧
      (∀ c, (s.client c).Grows (client c)) ∧ ∀ t ≠ s.jobs.next, origin t = s.origin t := by
    have grows := reply_grows
      { s with results := Function.update s.results (s.origin t) (s.results (s.origin t) ++ [ret]) }
      (s.jobs.pid t) ⟨s.origin t, 0, ret⟩
    obtain ⟨client, equal⟩ := reply_frame
      { s with results := Function.update s.results (s.origin t) (s.results (s.origin t) ++ [ret]) }
      (s.jobs.pid t) ⟨s.origin t, 0, ret⟩
    refine ⟨client, _, _, equal, ?_, fun _ _ => rfl⟩
    rw [equal] at grows
    exact grows
  cases a with
  | recvNormal p =>
      cases r with
      | none => exact quiet
      | some r =>
          refine ⟨_, _, _, rfl, fun c => Client.Grows.refl _, ?_⟩
          intro t old
          exact Function.update_of_ne old _ _
  | recvSignal p n =>
      cases r with
      | none => exact quiet
      | some r =>
          simp only [sends]
          split
          · have grows := reply_grows s p ⟨r.client, r.signum, 0⟩
            obtain ⟨client, equal⟩ := reply_frame s p ⟨r.client, r.signum, 0⟩
            refine ⟨client, _, _, equal, ?_, fun _ _ => rfl⟩
            rw [equal] at grows
            exact grows
          · exact quiet
  | init t ok =>
      cases ok with
      | true => exact quiet
      | false => exact answered t enomem
  | finish t => exact answered t ret
  | deliver t =>
      simp only [sends]
      split
      · exact quiet
      · exact answered t ret
  | create ok => exact quiet
  | main => exact quiet
  | handler t => exact quiet

/-- What a step of the daemon takes from its socket, and what it leaves behind. -/
theorem jobStep_cases (hstep : jobStep pid s a ret = some s') : s.alive = true ∧ ∃ r rest jobs,
    takeRequest pid s a = some (r, rest) ∧ Jobs.step s.jobs a = some jobs ∧
      s' = { sends s a ret r with inbox := rest, jobs := jobs } := by
  unfold jobStep at hstep
  split at hstep
  · rename_i alive
    refine ⟨alive, ?_⟩
    split at hstep
    · rename_i r rest jobs taken moved
      exact ⟨r, rest, jobs, taken, moved, (Option.some.inj hstep).symm⟩
    · cases hstep
  · cases hstep

theorem takeNormal {p : Nat} {r : Option Request} {rest : List Request}
    (taken : takeRequest pid s (.recvNormal p) = some (r, rest)) :
    ∃ c, pid c = p ∧ r = some ⟨c, 0⟩ ∧ s.inbox = ⟨c, 0⟩ :: rest := by
  simp only [takeRequest] at taken
  split at taken
  · rename_i c rest' inbox
    split at taken
    · rename_i same
      cases taken
      exact ⟨c, same, rfl, inbox⟩
    · cases taken
  · cases taken

theorem takeSignal {p n : Nat} {r : Option Request} {rest : List Request}
    (taken : takeRequest pid s (.recvSignal p n) = some (r, rest)) :
    ∃ c, pid c = p ∧ n ≠ 0 ∧ r = some ⟨c, n⟩ ∧ s.inbox = ⟨c, n⟩ :: rest := by
  simp only [takeRequest] at taken
  split at taken
  · rename_i c m rest' inbox
    split at taken
    · rename_i same
      obtain ⟨same, rfl⟩ := same
      cases taken
      exact ⟨c, same, Nat.succ_ne_zero m, rfl, inbox⟩
    · cases taken
  · cases taken

/-- Only the two messages come out of the socket. -/
theorem takeRequest_mem {r : Option Request} {rest : List Request}
    (taken : takeRequest pid s a = some (r, rest)) {q : Request} (mem : q ∈ s.inbox) :
    q ∈ rest ∨ r = some q ∧ (q.signum = 0 ∧ a = .recvNormal (pid q.client) ∨
      q.signum ≠ 0 ∧ a = .recvSignal (pid q.client) q.signum) := by
  cases a with
  | recvNormal p =>
      obtain ⟨c, rfl, rfl, inbox⟩ := takeNormal taken
      rw [inbox] at mem
      rcases List.mem_cons.mp mem with rfl | mem
      · exact .inr ⟨rfl, .inl ⟨rfl, rfl⟩⟩
      · exact .inl mem
  | recvSignal p n =>
      obtain ⟨c, rfl, nonzero, rfl, inbox⟩ := takeSignal taken
      rw [inbox] at mem
      rcases List.mem_cons.mp mem with rfl | mem
      · exact .inr ⟨rfl, .inr ⟨nonzero, rfl⟩⟩
      · exact .inl mem
  | create ok | main | init t ok | finish t | handler t | deliver t =>
      cases taken
      exact .inl mem

/-- Every job is for the client that sent its command. -/
theorem jobs_origin {r : Option Request} {rest : List Request} {jobs : Jobs.State}
    (h : ∀ t < s.jobs.next, s.jobs.pid t = pid (s.origin t))
    (taken : takeRequest pid s a = some (r, rest)) (moved : Jobs.step s.jobs a = some jobs)
    (t : Nat) (born : t < jobs.next) : jobs.pid t = pid ((sends s a ret r).origin t) := by
  obtain ⟨client, results, origin, equal, -, old⟩ := sends_frame s a ret r
  rcases Jobs.step_pid moved with ⟨p, rfl, next, pids⟩ | ⟨next, pids⟩
  · obtain ⟨c, rfl, rfl, -⟩ := takeNormal taken
    rw [next] at born
    rw [pids]
    change _ = pid (Function.update s.origin s.jobs.next c t)
    rcases Nat.lt_succ_iff_lt_or_eq.mp born with before | rfl
    · rw [Function.update_of_ne before.ne, Function.update_of_ne before.ne]
      exact h t before
    · rw [Function.update_self, Function.update_self]
  · rw [next] at born
    rw [pids, equal]
    change _ = pid (origin t)
    rw [old t born.ne]
    exact h t born

end Steps

/-! ### Pids and paths -/

section Bound

variable (pid : Nat → Nat)

/-- A pid belongs to one process, and a path leads to the open socket of this process. -/
structure State.Bound (s : State) : Prop where
  ok : ∀ c, (s.client c).Ok
  owner : ∀ c, (s.client c).live = true → s.owner (pid c) = some c
  path : ∀ p c, s.path p = some c ↔ pid c = p ∧ (s.client c).opened = true

variable {pid}

theorem start_bound : start.Bound pid := by
  refine ⟨fun c => ⟨fun _ => rfl, ?_, ?_, ?_⟩, ?_, ?_⟩
  · rintro (phase | phase) <;> cases phase
  · intro f mem
    cases mem
  · intro opened
    cases opened
  · intro c live
    cases live
  · intro p c
    exact iff_of_false (by simp [start]) (by simp [start])

theorem State.Bound.sole {s : State} (h : s.Bound pid) {c c' : Nat}
    (live : (s.client c).live = true) (live' : (s.client c').live = true) (same : pid c' = pid c) :
    c' = c := by
  have own := h.owner c live
  rw [← same, h.owner c' live'] at own
  exact Option.some.inj own

/-- No other process has the pid of a client that moves. -/
theorem State.Bound.alone {s s' : State} (h : s.Bound pid) {c : Nat} {x : Client} {n : Option Nat}
    (moved : Moved pid s c x n s') {c' : Nat} (live : (s.client c').live = true)
    (same : pid c' = pid c) : c' = c := by
  rcases moved.move.live (h.ok c) with live' | phase
  · exact h.sole live' live same
  · have own := h.owner c' live
    rw [same, moved.free phase] at own
    cases own

theorem Moved.self {s s' : State} {c : Nat} {x : Client} {n : Option Nat}
    (moved : Moved pid s c x n s') : s'.client c = x := by
  rw [moved.client, Function.update_self]

theorem Moved.other {s s' : State} {c c' : Nat} {x : Client} {n : Option Nat}
    (moved : Moved pid s c x n s') (other : c' ≠ c) : s'.client c' = s.client c' := by
  rw [moved.client, Function.update_of_ne other]

theorem Moved.bound {s s' : State} {c : Nat} {x : Client} {n : Option Nat}
    (moved : Moved pid s c x n s') (h : s.Bound pid) : s'.Bound pid := by
  have self := moved.self
  have ok := moved.move.ok (h.ok c)
  -- Another client with an open socket has another pid.
  have apart {c' : Nat} (other : c' ≠ c) (live : (s.client c').live = true) : pid c' ≠ pid c :=
    fun same => other (h.alone moved live same)
  have mine : s'.path (pid c) = if x.opened then some c else none := by
    rcases moved.path.2 with bound | ⟨same, opened⟩
    · exact bound
    · rw [same, opened]
      cases at_ : (s.client c).opened with
      | true => exact (h.path _ c).mpr ⟨rfl, at_⟩
      | false =>
          cases held : s.path (pid c) with
          | none => rfl
          | some c' =>
              obtain ⟨samePid, there⟩ := (h.path _ c').mp held
              have equal := h.alone moved ((h.ok c').opened there) samePid
              rw [equal, at_] at there
              cases there
  refine ⟨?_, ?_, ?_⟩
  · intro c'
    by_cases same : c' = c
    · rw [same, self]
      exact ok
    · rw [moved.other same]
      exact h.ok c'
  · intro c' live
    by_cases same : c' = c
    · subst same
      rw [self] at live
      rcases moved.owner.2 with own | ⟨own, before⟩
      · rw [own, if_pos live]
      · rw [own]
        exact h.owner c' before
    · rw [moved.other same] at live
      rw [moved.owner.1 _ (apart same live)]
      exact h.owner c' live
  · intro p c'
    by_cases at_ : p = pid c
    · subst at_
      rw [mine]
      by_cases same : c' = c
      · subst same
        rw [self]
        cases x.opened <;> simp
      · rw [moved.other same]
        have absent : ¬ (pid c' = pid c ∧ (s.client c').opened = true) := by
          rintro ⟨equal, opened⟩
          exact apart same ((h.ok c').opened opened) equal
        have unbound : (if x.opened then some c else none) ≠ some c' := by
          split
          · intro equal
            exact same (Option.some.inj equal).symm
          · simp
        exact iff_of_false unbound absent
    · rw [moved.path.1 p at_, h.path p c']
      by_cases same : c' = c
      · subst same
        exact iff_of_false (fun both => at_ both.1.symm) fun both => at_ both.1.symm
      · rw [moved.other same]

/-- Some sockets receive replies. -/
theorem State.Bound.grow {s s' : State} (h : s.Bound pid)
    (grows : ∀ c, (s.client c).Grows (s'.client c)) (owner : s'.owner = s.owner)
    (path : s'.path = s.path) : s'.Bound pid := by
  refine ⟨?_, ?_, ?_⟩
  · intro c
    obtain ⟨more, equal⟩ := grows c
    rw [equal]
    exact ⟨(h.ok c).frames, (h.ok c).early, (h.ok c).signals, (h.ok c).opened⟩
  · intro c live
    obtain ⟨more, equal⟩ := grows c
    rw [equal] at live
    rw [owner]
    exact h.owner c live
  · intro p c
    obtain ⟨more, equal⟩ := grows c
    rw [path, equal]
    exact h.path p c

theorem jobStep_bound {s s' : State} {a : Jobs.Act} {ret : Int} (h : s.Bound pid)
    (hstep : jobStep pid s a ret = some s') : s'.Bound pid := by
  obtain ⟨-, r, rest, jobs, -, -, rfl⟩ := jobStep_cases hstep
  obtain ⟨client, results, origin, equal, grows, -⟩ := sends_frame s a ret r
  rw [equal]
  exact h.grow grows rfl rfl

end Bound

end Unvmed.Session
