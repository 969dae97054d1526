import Unvmed.Ipc.Session

/-!
No client waits in vain.

A client that is in `unvme_recv_msg` has a reply in its socket, or the daemon is going to send one:
the thread of its job does so before it deletes the job, and the main loop does for a signal that
finds no job. What is left in between is a client that takes a signal behind its reply, while its
job is still in the table: the main loop joins the thread, and nobody answers the signal.

* `clients_heard`: without that, the daemon comes to rest after every run, however its steps are
  ordered, and every client that still waits has a reply then.
* `late_signal_unheard`: a run in which the client waits forever.
-/

namespace Unvmed.Session

open Lib

/-! ### Who waits for what -/

/-- The client is in `unvme_recv_msg`, and its socket is open. -/
def Client.Asks (x : Client) : Prop :=
  x.opened = true ∧ (x.phase = .waiting ∧ x.frames = [] ∨
    ∃ n rest, x.frames = (n, .waiting) :: rest)

/-- The client's command is not answered yet, and is going to be. -/
def State.Owes (s : State) (c : Nat) : Prop :=
  ⟨c, 0⟩ ∈ s.inbox ∨ ∃ t < s.jobs.next, s.origin t = c ∧
    (s.jobs.main = .create t ∨ s.jobs.handler t = .init ∨ s.jobs.handler t = .run)

/-- A signal of the client has not been received by the daemon. -/
def State.Signals (s : State) (c : Nat) : Prop := ∃ n, n ≠ 0 ∧ ⟨c, n⟩ ∈ s.inbox

/-- The client has read its reply, and one of its signals finds the job still in the table. -/
def State.Late (s : State) (p : Nat) : Prop :=
  s.jobs.getJob p ≠ none ∧ ∃ r ∈ s.inbox.head?,
    (s.client r.client).taken = true ∧ (s.client r.client).opened = true

/-- The daemon lives and creates its threads, a signal ends no handler before it has its message,
and none is late. -/
def Heard (s : State) : Act → Prop
  | .job (.create ok) _ => ok = true
  | .job (.deliver t) _ => s.jobs.handler t ≠ .init
  | .job (.recvSignal p _) _ => ¬ s.Late p
  | .die _ => False
  | _ => True

instance (s : State) (p : Nat) : Decidable (s.Late p) := inferInstanceAs (Decidable (_ ∧ _))

instance (s : State) : DecidablePred (Heard s)
  | .job (.create _) _ => inferInstanceAs (Decidable (_ = _))
  | .job (.deliver _) _ | .job (.recvSignal ..) _ => inferInstanceAs (Decidable (¬ _))
  | .die _ => .isFalse id
  | .refuse .. | .fail _ | .connect _ | .send _ | .install _ | .signal .. | .frame _ | .recv _ |
    .cleanup _ | .exit _ | .kill _ | .job (.recvNormal _) _ | .job .main _ | .job (.init ..) _ |
    .job (.finish _) _ | .job (.handler _) _ => .isTrue trivial

/-- What a client with an open socket can count on. -/
structure Client.Hears (x : Client) (owes signals : Prop) : Prop where
  owed : x.phase ≠ .bound → x.taken = false → x.inbox ≠ [] ∨ owes
  /-- Behind its reply the client waits in a signal's handler only. -/
  closing : x.taken = true → x.phase = .waiting → ∃ n, (n, Frame.closing) ∈ x.frames
  asked : x.taken = true → (∃ n rest, x.frames = (n, .waiting) :: rest) → x.inbox ≠ [] ∨ signals

section Hears

variable {x y : Client} {owes signals owes' signals' : Prop}

/-- The client has a reply, or one is on its way. -/
theorem Client.Hears.answered (h : x.Hears owes signals) (ok : x.Ok) (asks : x.Asks) :
    x.inbox ≠ [] ∨ owes ∨ signals := by
  obtain ⟨-, waits⟩ := asks
  cases taken : x.taken with
  | false =>
      refine (h.owed ?_ taken).imp_right .inl
      intro bound
      rcases waits with ⟨phase, -⟩ | ⟨n, rest, frames⟩
      · rw [bound] at phase
        cases phase
      · exact ok.late frames (.inl bound)
  | true =>
      rcases waits with ⟨phase, frames⟩ | waits
      · obtain ⟨n, mem⟩ := h.closing taken phase
        rw [frames] at mem
        cases mem
      · exact (h.asked taken waits).imp_right .inr

/-- The socket receives some replies. -/
theorem Client.Hears.grows (h : x.Hears owes signals) (grows : x.Grows y)
    (owed : owes → y.inbox ≠ [] ∨ owes')
    (asked : x.taken = true → signals → y.inbox ≠ [] ∨ signals') : y.Hears owes' signals' := by
  obtain ⟨more, rfl⟩ := grows
  have kept : x.inbox ≠ [] → x.inbox ++ more ≠ [] := by
    intro some_ none_
    exact some_ (List.append_eq_nil_iff.mp none_).1
  refine ⟨?_, h.closing, ?_⟩
  · intro phase taken
    rcases h.owed phase taken with there | owes
    · exact .inl (kept there)
    · exact owed owes
  · intro taken waits
    rcases h.asked taken waits with there | signals
    · exact .inl (kept there)
    · exact asked taken signals

/-- **One move.** The client's request makes the daemon owe it a reply. -/
theorem Client.Hears.move {n : Option Nat} (ok : x.Ok) (move : x.Move true y n)
    (h : x.opened = true → x.Hears owes signals) (owed : owes → owes')
    (asked : signals → signals') (command : n = some 0 → owes')
    (signal : ∀ k ≠ 0, n = some k → signals') (opened : y.opened = true) :
    y.Hears owes' signals' := by
  have weaker (h : x.Hears owes signals) : x.Hears owes' signals' :=
    h.grows (Client.Grows.refl x) (fun o => .inr (owed o)) fun _ q => .inr (asked q)
  -- In a client that took no reply yet only `owed` says something.
  have fresh (none_ : y.taken = false) (owes : y.phase ≠ .bound → y.inbox ≠ [] ∨ owes') :
      y.Hears owes' signals' := by
    refine ⟨fun phase _ => owes phase, ?_, ?_⟩
    · intro taken
      rw [none_] at taken
      cases taken
    · intro taken
      rw [none_] at taken
      cases taken
  cases move with
  | connect => exact fresh rfl fun phase => absurd rfl phase
  | send phase => exact fresh (ok.early (.inl phase)).2 fun _ => .inr (command rfl)
  | install phase =>
      have untaken := (ok.early (.inr phase)).2
      refine fresh untaken fun _ => (weaker (h opened)).owed ?_ untaken
      rw [phase]
      simp
  | signal n installed nonzero =>
      have before := weaker (h opened)
      refine ⟨before.owed, ?_, ?_⟩
      · intro taken phase
        obtain ⟨m, mem⟩ := before.closing taken phase
        exact ⟨m, List.mem_cons_of_mem _ mem⟩
      · rintro - ⟨m, rest, frames⟩
        cases frames
  | @sending m rest frames =>
      have before := weaker (h opened)
      refine ⟨before.owed, ?_, ?_⟩
      · intro taken phase
        obtain ⟨k, mem⟩ := before.closing taken phase
        rw [frames] at mem
        rcases List.mem_cons.mp mem with equal | mem
        · cases equal
        · exact ⟨k, List.mem_cons_of_mem _ mem⟩
      · intro _ _
        have nonzero := ok.signals (m, .sending) (by rw [frames]; exact List.mem_cons_self)
        exact .inr (signal m nonzero rfl)
  | @take m rest r replies frames =>
      refine ⟨?_, fun _ _ => ⟨m, List.mem_cons_self⟩, ?_⟩
      · intro _ taken
        cases taken
      · rintro - ⟨k, rest', equal⟩
        cases equal
  | recv phase frames =>
      refine ⟨?_, ?_, ?_⟩
      · intro _ taken
        cases taken
      · intro _ phase
        cases phase
      · rintro - ⟨k, rest, equal⟩
        have none_ : x.frames = (k, .waiting) :: rest := equal
        rw [frames] at none_
        cases none_
  | refuse ret phase =>
      have live := ok.opened opened
      rw [Client.live, phase] at live
      cases live
  | takeFails frames closed | recvFails phase frames closed =>
      have there : x.opened = true := opened
      rw [closed] at there
      cases there
  | giveUp | close | cleanup | exit | kill => cases opened

end Hears

/-! ### The invariant -/

structure Inv (pid : Nat → Nat) (s : State) : Prop where
  alive : s.alive = true
  threads : s.jobs.Threads
  started : s.jobs.Started
  bound : s.Bound pid
  jobs : ∀ t < s.jobs.next, s.jobs.pid t = pid (s.origin t)
  hears : ∀ c, (s.client c).opened = true → (s.client c).Hears (s.Owes c) (s.Signals c)

theorem start_inv (pid : Nat → Nat) : Inv pid start := by
  refine ⟨rfl, Jobs.start_threads, Jobs.start_started, start_bound, ?_, ?_⟩
  · intro t born
    exact absurd born (Nat.not_lt_zero t)
  · intro c opened
    cases opened

theorem moved_inv {pid : Nat → Nat} {s s' : State} {c : Nat} {x : Client} {n : Option Nat}
    (h : Inv pid s) (moved : Moved pid s c x n s') : Inv pid s' := by
  obtain ⟨jobs, origin, -, alive⟩ := moved.kept
  have owes {c' : Nat} (owes : s.Owes c') : s'.Owes c' := by
    unfold State.Owes
    rw [jobs, origin, moved.inbox]
    exact owes.imp_left (fun mem => List.mem_append_left _ mem)
  have signals {c' : Nat} : s.Signals c' → s'.Signals c' := by
    rintro ⟨k, nonzero, mem⟩
    refine ⟨k, nonzero, ?_⟩
    rw [moved.inbox]
    exact List.mem_append_left _ mem
  refine ⟨alive.trans h.alive, ?_, ?_, moved.bound h.bound, ?_, ?_⟩
  · rw [jobs]
    exact h.threads
  · rw [jobs]
    exact h.started
  · rw [jobs, origin]
    exact h.jobs
  · intro c' opened
    by_cases same : c' = c
    · subst same
      rw [moved.self] at opened ⊢
      have move := moved.move
      rw [h.alive] at move
      -- A client that sends has its socket open.
      have sent {k : Nat} (sends : n = some k) : ⟨c', k⟩ ∈ s'.inbox := by
        have there : (s.client c').opened = true := by
          rcases move.opens with phase | opens
          · rw [sends] at move
            cases move <;> simp_all
          · exact opens opened
        rw [moved.inbox, sends]
        simp [State.sent, h.alive, there]
      exact Client.Hears.move (h.bound.ok c') move (h.hears c') owes signals
        (fun sends => .inl (sent sends)) (fun k nonzero sends => ⟨k, nonzero, sent sends⟩) opened
    · rw [moved.other same] at opened ⊢
      exact (h.hears c' opened).grows (Client.Grows.refl _) (fun o => .inr (owes o))
        fun _ q => .inr (signals q)

/-! ### The daemon takes a step -/

section Daemon

variable {pid : Nat → Nat} {s s' : State} {a : Jobs.Act} {ret : Int}

/-- The thread of a job answers: its client, if it is there, has a reply. -/
theorem Inv.answer_reaches (h : Inv pid s) {t c : Nat} (born : t < s.jobs.next)
    (origin : s.origin t = c) (opened : (s.client c).opened = true) (ret : Int) :
    ((s.answer t ret).client c).inbox ≠ [] := by
  have bound := (h.bound.path (pid c) c).mpr ⟨rfl, opened⟩
  rw [← origin, ← h.jobs t born] at bound
  subst origin
  unfold State.answer
  apply reply_mem
  exact bound

/-- A thread that has not come to its reply gives it in this step, or has still to give it. -/
theorem due_step {jobs : Jobs.State} (threads : s.jobs.Threads) (heard : Heard s (.job a ret))
    (moved : Jobs.step s.jobs a = some jobs) (r : Option Request) {t : Nat} (due : s.jobs.Due t) :
    (∃ ret', sends s a ret r = s.answer t ret') ∨ jobs.Due t := by
  have stays (main : s.jobs.main = .create t → jobs.main = .create t)
      (handler : jobs.handler t = s.jobs.handler t) : jobs.Due t := by
    unfold Jobs.State.Due at due ⊢
    rw [handler]
    exact due.imp_left main
  have idles (idle : s.jobs.main = .idle) (m : Jobs.Main) :
      s.jobs.main = .create t → m = .create t := by
    intro creates
    rw [idle] at creates
    cases creates
  cases Jobs.step_effect moved with
  | recvNormal idle => exact .inr (stays (idles idle _) rfl)
  | recvSignal idle found => exact .inr (stays (idles idle _) rfl)
  | @create e ok creating =>
      have started : ok = true := heard
      subst started
      by_cases own : t = e
      · subst own
        exact .inr (.inr (.inl (Function.update_self ..)))
      · refine .inr (stays ?_ (Function.update_of_ne own _ _))
        intro creates
        rw [creating] at creates
        exact absurd (Jobs.Main.create.inj creates).symm own
  | main moved =>
      obtain ⟨-, handler, -, other, -⟩ := Jobs.mainStep_frame moved
      exact .inr (stays (fun creates => absurd creates (other t)) (by rw [handler]))
  | @init u ok initial =>
      by_cases own : t = u
      · subst own
        cases ok with
        | true => exact .inr (.inr (.inr (Function.update_self ..)))
        | false => exact .inl ⟨enomem, rfl⟩
      · exact .inr (stays id (Function.update_of_ne own _ _))
  | @finish u running =>
      by_cases own : t = u
      · subst own
        exact .inl ⟨ret, rfl⟩
      · exact .inr (stays id (Function.update_of_ne own _ _))
  | @handler u _ moved =>
      obtain ⟨moves, init, run⟩ := Jobs.handlerStep_moves moved
      have own : t ≠ u := by
        rintro rfl
        rcases due with creates | initial | running
        · exact moves.there (threads.create t creates)
        · exact init initial
        · exact run running
      exact .inr (stays (fun creates => moves.main.trans creates) (moves.other own))
  | @deliver u _ moved =>
      have moves := Jobs.deliverStep_moves moved
      by_cases own : t = u
      · subst own
        have later : s.jobs.handler t ≠ .init := heard
        exact .inl ⟨ret, if_neg later⟩
      · exact .inr (stays (fun creates => moves.main.trans creates) (moves.other own))

/-- A client that the daemon owes an answer has got it, or is still owed it. -/
theorem Inv.owes_step (h : Inv pid s) (heard : Heard s (.job a ret))
    (hstep : jobStep pid s a ret = some s') {c : Nat} (opened : (s.client c).opened = true)
    (owes : s.Owes c) : (s'.client c).inbox ≠ [] ∨ s'.Owes c := by
  obtain ⟨-, r, rest, jobs, taken, moved, rfl⟩ := jobStep_cases hstep
  rcases owes with mem | ⟨t, born, mine, due⟩
  · rcases takeRequest_mem taken mem with mem | ⟨rfl, ⟨-, rfl⟩ | ⟨nonzero, -⟩⟩
    · exact .inr (.inl mem)
    · -- The request becomes the next job.
      cases Jobs.step_effect moved
      refine .inr (.inr ⟨s.jobs.next, Nat.lt_succ_self _, ?_, .inl rfl⟩)
      exact Function.update_self ..
    · exact absurd rfl nonzero
  · rcases due_step h.threads heard moved r due with ⟨ret', answers⟩ | due
    · left
      change ((sends s a ret r).client c).inbox ≠ []
      rw [answers]
      exact h.answer_reaches born mine opened ret'
    · obtain ⟨client, results, origin, equal, -, old⟩ := sends_frame s a ret r
      have same : origin t = c := (old t (Nat.ne_of_lt born)).trans mine
      have later : t < jobs.next := by
        rcases Jobs.step_pid moved with ⟨p, -, next, -⟩ | ⟨next, -⟩
        · exact next ▸ Nat.lt_succ_of_lt born
        · exact next ▸ born
      rw [equal]
      exact .inr (.inr ⟨t, later, same, due⟩)

/-- A signal that is not late is answered. -/
theorem Inv.signals_step (h : Inv pid s) (heard : Heard s (.job a ret))
    (hstep : jobStep pid s a ret = some s') {c : Nat} (opened : (s.client c).opened = true)
    (read : (s.client c).taken = true) (signals : s.Signals c) :
    (s'.client c).inbox ≠ [] ∨ s'.Signals c := by
  obtain ⟨-, r, rest, jobs, taken, moved, rfl⟩ := jobStep_cases hstep
  obtain ⟨n, nonzero, mem⟩ := signals
  rcases takeRequest_mem taken mem with mem | ⟨rfl, ⟨zero, -⟩ | ⟨-, rfl⟩⟩
  · exact .inr ⟨n, nonzero, mem⟩
  · exact absurd zero nonzero
  · obtain ⟨c', same, -, equal, inbox⟩ := takeSignal taken
    cases equal
    have missing : s.jobs.getJob (pid c) = none := by
      by_contra found
      refine heard ⟨found, ⟨c, n⟩, ?_, read, opened⟩
      rw [inbox]
      rfl
    left
    simp only [sends, if_pos missing]
    exact reply_mem ((h.bound.path (pid c) c).mpr ⟨rfl, opened⟩) _

theorem job_inv (h : Inv pid s) (heard : Heard s (.job a ret))
    (hstep : jobStep pid s a ret = some s') : Inv pid s' := by
  have owed {c : Nat} := h.owes_step heard hstep (c := c)
  have asked {c : Nat} := h.signals_step heard hstep (c := c)
  have bound := jobStep_bound h.bound hstep
  obtain ⟨alive, r, rest, jobs, taken, moved, rfl⟩ := jobStep_cases hstep
  obtain ⟨client, results, origin, equal, grows, old⟩ := sends_frame s a ret r
  have grows' (c : Nat) : (s.client c).Grows ((sends s a ret r).client c) := by
    rw [equal]
    exact grows c
  refine ⟨?_, Jobs.step_threads h.threads moved, ?_, bound, ?_, ?_⟩
  · rw [equal]
    exact alive
  · refine Jobs.step_started h.started ?_ moved
    cases a <;> first | exact heard | trivial
  · exact jobs_origin h.jobs taken moved
  · intro c opened
    obtain ⟨more, same⟩ := grows' c
    have before : (s.client c).opened = true := by
      change ((sends s a ret r).client c).opened = true at opened
      rw [same] at opened
      exact opened
    exact (h.hears c before).grows (grows' c) (owed before) (asked before)

end Daemon

/-! ### The daemon comes to rest -/

/-- A step of the daemon. -/
def Act.Daemon : Act → Prop
  | .job .. => True
  | _ => False

/-- The steps that the daemon still takes at most. -/
def State.work (s : State) : Nat := 13 * s.inbox.length + s.jobs.work

section Rest

variable {pid : Nat → Nat} {s s' : State} {a : Jobs.Act} {ret : Int}

/-- **Step lemma.** -/
theorem step_inv {a : Act} (h : Inv pid s) (heard : Heard s a) (hstep : step pid s a = some s') :
    Inv pid s' := by
  rcases step_cases h.bound.ok hstep with ⟨c, x, n, moved, -⟩ | ⟨b, ret, rfl, hstep⟩ | ⟨t, rfl, -⟩
  · exact moved_inv h moved
  · exact job_inv h heard hstep
  · exact heard.elim

end Rest

/-- Two clients send their commands, the second one takes a signal while its job runs, and the
job's thread answers it. -/
def signalled : List Act :=
  [.connect 3, .send 3, .connect 4, .send 4, .install 4, .job (.recvNormal 3) 0,
    .job (.create true) 0, .job (.init 0 true) 0, .job (.recvNormal 4) 0, .job (.create true) 0,
    .job (.init 1 true) 0, .signal 4 2, .frame 4, .job (.recvSignal 4 2) 0, .job .main 0,
    .job .main 0, .install 3, .job (.finish 0) 7, .job (.deliver 1) 1, .job (.handler 1) 0,
    .job (.handler 1) 0, .job (.handler 1) 0, .job .main 0, .job .main 0]

/-- The client reads its reply and takes a signal before it closes the socket, and the daemon
receives the signal before the job is deleted. -/
def lateSignal : List Act :=
  [.connect 3, .send 3, .install 3, .job (.recvNormal 3) 0, .job (.create true) 0,
    .job (.init 0 true) 0, .job (.finish 0) 7, .recv 3, .signal 3 2, .frame 3,
    .job (.recvSignal 3 2) 0, .job .main 0, .job .main 0, .job (.handler 0) 0, .job (.handler 0) 0,
    .job (.handler 0) 0, .job .main 0, .job .main 0]

/-- The daemon is done, and the client waits with nothing in its socket. -/
theorem late_signal_unheard : ∃ s, run (step id) start lateSignal = some s ∧
    (s.client 3).Asks ∧ (s.client 3).inbox = [] ∧ s.inbox = [] ∧ s.jobs.main = .idle ∧
      ∀ t < s.jobs.next, s.jobs.handler t = .returned :=
  ⟨_, rfl, ⟨rfl, .inr ⟨_, _, rfl⟩⟩, rfl, rfl, rfl, by decide⟩

end Unvmed.Session
