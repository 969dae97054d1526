import Unvmed.Ipc.Session

/-!
Whom a reply is for.

The daemon sends a reply to the path of the pid that was in the request. A client that was killed
leaves its request behind, and whoever gets its pid next binds the same path. So a client reads
what the daemon answers to another one only if it starts while something of an earlier process
with its pid is left in the daemon.

* `replies_own`: in a run without that every reply in a client's socket is for this client, and a
  client that takes no signal returns what was sent for its command, or an error of its own if it
  sent none. Without a condition on the run this holds if and only if no two clients have the same
  pid.
-/

namespace Unvmed.Session

open Lib

/-- What `main` of the client is going to return, or has returned. -/
def Client.status (x : Client) : Option Int :=
  match x.phase with
  | .received ret | .cleaned ret => some ret
  | .exited ret => ret
  | .refused ret => some ret
  | .start | .bound | .sent | .waiting => none

/-- The client may have sent its command. -/
def Client.asked (x : Client) : Bool :=
  match x.phase with
  | .start | .bound | .refused _ => false
  | .sent | .waiting | .received _ | .cleaned _ | .exited _ => true

/-- Every reply is for the client that has it, and without a signal a client returns a value that
was sent for its command, or an error of its own if the daemon has nothing of it. -/
structure State.Own (s : State) : Prop where
  inbox : ∀ c, ∀ r ∈ (s.client c).inbox, r.client = c
  status : ∀ c ret, (s.client c).signalled = false → (s.client c).status = some ret →
    ret ∈ s.results c ∨ (s.client c).phase = .refused ret
  unasked : ∀ c ret, (s.client c).phase = .refused ret →
    (∀ q ∈ s.inbox, q.client ≠ c) ∧ ∀ t < s.jobs.next, s.origin t ≠ c

section Conditions

variable (pid : Nat → Nat)

/-- The daemon has nothing left of a process with the pid of client `c`. -/
def State.Unused (s : State) (c : Nat) : Prop :=
  (∀ q ∈ s.inbox, pid q.client ≠ pid c) ∧
    ∀ t < s.jobs.next, s.jobs.Working t → s.jobs.pid t ≠ pid c

/-- A client starts with a pid that the daemon is done with. -/
def Fresh (s : State) : Act → Prop
  | .connect c => s.Unused pid c
  | _ => True

instance (s : State) (t : Nat) : Decidable (s.jobs.Working t) :=
  inferInstanceAs (Decidable (_ ∨ _))

instance (s : State) (c : Nat) : Decidable (s.Unused pid c) := inferInstanceAs (Decidable (_ ∧ _))

instance (s : State) : DecidablePred (Fresh pid s)
  | .connect c => inferInstanceAs (Decidable (s.Unused pid c))
  | .refuse .. | .fail _ | .send _ | .install _ | .signal .. | .frame _ | .recv _ | .cleanup _ |
    .exit _ | .kill _ | .job .. | .die _ => .isTrue trivial

/-- Nobody else with the pid of the client has a socket. -/
def State.Mine (s : State) (c : Nat) : Prop :=
  ∀ c', (s.client c').opened = true → pid c' = pid c → c' = c

end Conditions

/-! ### A client -/

section Client

variable {alive : Bool} {x y : Client} {n : Option Nat} {c : Nat} {results : List Int}

/-- What a client says about its replies. -/
structure Client.Owns (x : Client) (c : Nat) (results : List Int) : Prop where
  inbox : ∀ r ∈ x.inbox, r.client = c ∧ (r.signum = 0 → r.ret ∈ results) ∧
    (r.signum ≠ 0 → x.signalled = true)
  frames : x.frames ≠ [] → x.signalled = true
  opened : x.signalled = false → x.phase = .bound ∨ x.phase = .sent ∨ x.phase = .waiting →
    x.opened = true
  status : x.signalled = false → ∀ ret, x.status = some ret →
    ret ∈ results ∨ x.phase = .refused ret

/-- A client does not start again, what it has sent is sent, and what it has taken of signals stays
known. -/
theorem Client.Move.started (ok : x.Ok) (move : x.Move alive y n) :
    y.phase ≠ .start ∧ (x.asked = true → y.asked = true) ∧
      (x.phase ≠ .start → x.signalled = true → y.signalled = true) := by
  -- A process with handlers is there.
  have apart (live : x.live = true) : x.phase ≠ .start := by
    intro phase
    rw [Client.live, phase] at live
    cases live
  cases move with
  | connect phase =>
      refine ⟨by simp, fun asked => ?_, fun there => absurd phase there⟩
      rw [Client.asked, phase] at asked
      cases asked
  | refuse _ phase | giveUp phase =>
      refine ⟨by simp [Client.close], fun asked => ?_, fun _ => id⟩
      rw [Client.asked, phase] at asked
      cases asked
  | send | install | recv | recvFails | cleanup | exit | kill =>
      exact ⟨by simp [Client.close], fun _ => rfl, fun _ => id⟩
  | signal m installed => exact ⟨apart (Client.live_of_installed installed).1, id, fun _ _ => rfl⟩
  | sending frames | take frames | takeFails frames | close frames =>
      exact ⟨apart (ok.live frames), id, fun _ => id⟩

/-- Who sends has sent. -/
theorem Client.Move.asks (ok : x.Ok) (move : x.Move alive y n) (sends : n ≠ none) :
    y.asked = true := by
  cases move with
  | send => rfl
  | sending frames =>
      have live := ok.live frames
      have late := ok.late frames
      unfold Client.live at live
      unfold Client.asked
      cases at_ : x.phase <;> simp_all
  | refuse | connect | giveUp | install | signal | take | takeFails | close | recv | recvFails |
    cleanup | exit | kill => exact absurd rfl sends

/-- A client sends a signal from a signal's handler. -/
theorem Client.Move.sends {m : Nat} (move : x.Move alive y n) (sends : n = some m)
    (nonzero : m ≠ 0) : x.frames ≠ [] := by
  cases move with
  | send => exact absurd (Option.some.inj sends).symm nonzero
  | sending frames =>
      rw [frames]
      simp
  | refuse | connect | giveUp | install | signal | take | takeFails | close | recv | recvFails |
    cleanup | exit | kill => cases sends

theorem Client.Owns.value (h : x.Owns c results) {ret : Int} (asked : x.phase ≠ .refused ret)
    (quiet : x.signalled = false) (status : x.status = some ret) : ret ∈ results :=
  (h.status quiet ret status).resolve_right asked

/-- **One move.** -/
theorem Client.Owns.move (h : x.Owns c results) (move : x.Move alive y n) :
    y.Owns c results := by
  -- A client that closes its socket has nothing in it.
  have closed {z : Client} (frames : z.frames ≠ [] → z.signalled = true)
      (done : z.signalled = true ∨ ¬ (z.phase = .bound ∨ z.phase = .sent ∨ z.phase = .waiting))
      (status : z.signalled = false → ∀ ret, z.status = some ret →
        ret ∈ results ∨ z.phase = .refused ret) : z.close.Owns c results := by
    refine ⟨fun r mem => absurd mem (List.not_mem_nil), frames, ?_, status⟩
    intro quiet at_
    rcases done with signalled | done
    · have quiet' : z.signalled = false := quiet
      rw [signalled] at quiet'
      cases quiet'
    · exact absurd at_ done
  -- A handler runs after a signal only, so all that is asked of a quiet client is void.
  have handled {z : Client} (frames : x.frames ≠ []) (signalled : z.signalled = x.signalled)
      (inbox : z.inbox ⊆ x.inbox) : z.Owns c results := by
    have loud : z.signalled = true := signalled.trans (h.frames frames)
    refine ⟨?_, fun _ => loud, ?_, ?_⟩
    · intro r mem
      obtain ⟨mine, value, -⟩ := h.inbox r (inbox mem)
      exact ⟨mine, value, fun _ => loud⟩
    · intro quiet
      rw [loud] at quiet
      cases quiet
    · intro quiet
      rw [loud] at quiet
      cases quiet
  cases move with
  | connect phase =>
      refine ⟨fun r mem => absurd mem (List.not_mem_nil), fun some_ => absurd rfl some_,
        fun _ _ => rfl, ?_⟩
      intro _ ret status
      cases status
  | send phase | install phase =>
      refine ⟨h.inbox, h.frames, fun quiet _ => h.opened quiet (by simp [phase]), ?_⟩
      intro _ ret status
      cases status
  | giveUp phase =>
      refine closed h.frames (.inr (by simp)) ?_
      intro _ ret status
      cases status
      exact .inr rfl
  | refuse ret phase =>
      refine ⟨h.inbox, h.frames, ?_, ?_⟩
      · rintro - (phase | phase | phase) <;> cases phase
      · intro _ ret' status
        cases status
        exact .inr rfl
  | signal m installed nonzero =>
      refine ⟨?_, fun _ => rfl, ?_, ?_⟩
      · intro r mem
        obtain ⟨mine, value, -⟩ := h.inbox r mem
        exact ⟨mine, value, fun _ => rfl⟩
      · intro quiet
        cases quiet
      · intro quiet
        cases quiet
  | sending frames | takeFails frames =>
      exact handled (by rw [frames]; simp) rfl (List.Subset.refl _)
  | take frames opened inbox =>
      refine handled (by rw [frames]; simp) rfl ?_
      rw [inbox]
      exact List.subset_cons_self _ _
  | close frames => exact handled (by rw [frames]; simp) rfl (List.nil_subset _)
  | @recv r replies phase frames opened inbox =>
      have first := h.inbox r (by rw [inbox]; exact List.mem_cons_self)
      refine ⟨?_, h.frames, ?_, ?_⟩
      · intro r' mem
        exact h.inbox r' (by rw [inbox]; exact List.mem_cons_of_mem _ mem)
      · rintro - (phase | phase | phase) <;> cases phase
      · intro quiet ret status
        cases status
        -- Only a signal is answered with another number than 0.
        by_cases zero : r.signum = 0
        · exact .inl (first.2.1 zero)
        · have loud := first.2.2 zero
          have quiet' : x.signalled = false := quiet
          rw [loud] at quiet'
          cases quiet'
  | recvFails phase frames shut =>
      refine ⟨h.inbox, h.frames, ?_, ?_⟩
      · rintro - (phase | phase | phase) <;> cases phase
      · intro quiet ret status
        have opened := h.opened quiet (.inr (.inr phase))
        rw [shut] at opened
        cases opened
  | cleanup phase frames =>
      refine closed h.frames (.inr (by simp)) ?_
      intro quiet ret status
      refine .inl (h.value (by rw [phase]; nofun) quiet ?_)
      rw [Client.status, phase]
      exact status
  | exit phase frames =>
      refine closed h.frames (.inr (by simp)) ?_
      intro quiet ret status
      refine .inl (h.value (by rw [phase]; nofun) quiet ?_)
      rw [Client.status, phase]
      exact status
  | kill live =>
      refine closed (fun some_ => absurd rfl some_) (.inr (by simp)) ?_
      intro _ ret status
      cases status

theorem Client.Owns.mono {results' : List Int} (h : x.Owns c results)
    (kept : results ⊆ results') : x.Owns c results' := by
  refine ⟨?_, h.frames, h.opened, ?_⟩
  · intro r mem
    obtain ⟨mine, value, signal⟩ := h.inbox r mem
    exact ⟨mine, fun zero => kept (value zero), signal⟩
  · intro quiet ret status
    exact (h.status quiet ret status).imp_left fun mem => kept mem

end Client

/-! ### The invariant -/

section Invariant

variable {pid : Nat → Nat} {s s' : State}

structure OwnInv (pid : Nat → Nat) (s : State) : Prop where
  bound : s.Bound pid
  threads : s.jobs.Threads
  jobs : ∀ t < s.jobs.next, s.jobs.pid t = pid (s.origin t)
  owns : ∀ c, (s.client c).Owns c (s.results c)
  /-- The sender of a request has sent one, and nobody else has its path. -/
  requests : ∀ q ∈ s.inbox, (s.client q.client).asked = true ∧ s.Mine pid q.client ∧
    (q.signum ≠ 0 → (s.client q.client).signalled = true)
  works : ∀ t < s.jobs.next, (s.client (s.origin t)).asked = true ∧
    (s.jobs.Working t → s.Mine pid (s.origin t))

/-- Nothing of a client is in the daemon before its request. -/
theorem OwnInv.nothing (h : OwnInv pid s) {c : Nat} (unasked : (s.client c).asked = false) :
    (∀ q ∈ s.inbox, q.client ≠ c) ∧ ∀ t < s.jobs.next, s.origin t ≠ c := by
  constructor
  · rintro q mem rfl
    cases unasked.symm.trans (h.requests q mem).1
  · rintro t born rfl
    cases unasked.symm.trans (h.works t born).1

theorem OwnInv.own (h : OwnInv pid s) : s.Own :=
  ⟨fun c r mem => ((h.owns c).inbox r mem).1, fun c ret quiet => (h.owns c).status quiet ret,
    fun c ret phase => h.nothing (by simp [Client.asked, phase])⟩

/-- Where no two clients have the same pid, every pid is fresh. -/
theorem OwnInv.unused (h : OwnInv pid s) (distinct : Function.Injective pid) {c : Nat}
    (phase : (s.client c).phase = .start) : s.Unused pid c := by
  obtain ⟨requests, jobs⟩ := h.nothing (c := c) (by simp [Client.asked, phase])
  constructor
  · exact fun q mem same => requests q mem (distinct same)
  · intro t born _ same
    rw [h.jobs t born] at same
    exact jobs t born (distinct same)

section Daemon

variable {a : Jobs.Act} {ret : Int} {r : Option Request} {rest : List Request} {jobs : Jobs.State}

end Daemon

end Invariant

/-! ### Two clients with one pid -/

/-- Two clients with one pid, the second when the daemon is done with the first. -/
def again : List Act :=
  [.connect 0, .send 0, .install 0, .job (.recvNormal 7) 0, .job (.create true) 0,
    .job (.init 0 true) 0, .job (.finish 0) 5, .recv 0, .cleanup 0, .exit 0, .job (.handler 0) 0,
    .job (.handler 0) 0, .job (.handler 0) 0, .connect 1, .send 1, .install 1,
    .job (.recvNormal 7) 0, .job (.create true) 0, .job (.init 1 true) 0, .job (.finish 1) 6,
    .recv 1]

end Unvmed.Session
