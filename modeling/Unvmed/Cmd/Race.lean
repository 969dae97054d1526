import Unvmed.Lib.Run
import Unvmed.Lib.Tally
import Unvmed.Basic

/-!
Who may complete a command (`lib/libunvmed.c`).

Three kinds of agent complete the commands of one submission queue: the reaper of
its completion queue and the cancellation of the queue, both under the CQ lock,
and the timer handler, under the SQ lock only. Each of them loads `cmd->state`,
stores `TO_BE_COMPLETED` and then delivers, by a wakeup or by a VCQ entry, in
separate steps. The device posts any completions it likes.

* `reaper_and_timer_both_deliver`: a reaper and a timer that both load
  `SUBMITTED` deliver two completions of one command.
* `delivered_at_most_once`: in every run where no store of `TO_BE_COMPLETED`
  finds a command that is already marked or completed (`FirstToMark`), and no
  command is posted between such a store and its delivery, every posted command
  gets at most one delivery before it is freed.
-/

namespace Unvmed.Race

open Lib

/-- Where an agent goes on after a command is completed. -/
inductive After where
  /-- `__unvmed_reap_cqe` -/
  | reap
  /-- The first loop of `unvmed_cancel_sq`, over the entries of the CQ. -/
  | drain
  /-- Its second loop, over the command slots, from slot `i`. -/
  | sweep (i : Nat)
  /-- The second loop of `unvmed_timer_handler`, at `cid`. -/
  | timer (cid : Nat)
  deriving DecidableEq, Repr

/-- Where an agent is; each name says which access comes next. -/
inductive Pc where
  | idle
  /-- Look for the next entry of the CQ. -/
  | take (k : After)
  /-- `unvmed_get_cmd_on_reaper`: load `cmds[cid].state`. -/
  | load (cqe : Cqe) (k : After)
  /-- The same function's fallback on `conflict_cmds`. -/
  | loadConflict (cqe : Cqe) (k : After)
  /-- `__unvmed_put_cqe`: load the state of slot `i`; the last one is the conflict slot. -/
  | sweep (i : Nat)
  /-- `unvmed_cmd_get` in the timer's loop. -/
  | timerGet (cid : Nat)
  /-- `unvmed_cmd_expired` -/
  | timerCheck (cid : Nat)
  /-- `unvmed_cmd_timeout`: the second `unvmed_cmd_get` and the `TIMEDOUT` flag. -/
  | timerFlag (cid : Nat)
  /-- `unvmed_cmd_cmpl_wakeup`: store `TO_BE_COMPLETED`. -/
  | mark (slot : Slot) (cqe : Cqe) (k : After)
  /-- The wakeup, or `unvmed_vcq_push`. -/
  | deliver (slot : Slot) (cqe : Cqe) (k : After)
  /-- The two `unvmed_cmd_put` of the timer. -/
  | timerPut2 (cid : Nat)
  | timerPut (cid : Nat)
  deriving DecidableEq, Repr

/-- One SQ with its CQ, and the agents. -/
structure State (ι : Type) where
  sqid : Nat
  bdf : Nat
  qsize : Nat
  cmds : Cmds
  /-- Entries of the CQ that are not consumed yet. -/
  ring : List Cqe
  /-- `__vcq_map`; a VCQ is the list of its entries. -/
  vcqMap : Nat → Option (List Vcqe)
  /-- `u->nr_cmds` -/
  nrCmds : Int
  cqLock : Option ι
  sqLock : Option ι
  pcs : ι → Pc
  /-- The command was posted and is not freed yet. -/
  posted : Slot → Bool
  /-- Deliveries since the last post. -/
  delivered : Slot → Nat

inductive Act (ι : Type) where
  /-- `__unvmed_cmd_alloc`, with the flag the caller sets before it posts. -/
  | alloc (slot : Slot) (cid vcq : Nat) (wakeup : Bool)
  /-- `unvmed_cmd_post`, under the SQ lock. -/
  | post (slot : Slot)
  /-- `unvmed_cmd_get` and `unvmed_cmd_put` by anyone. -/
  | get (slot : Slot)
  | put (slot : Slot)
  /-- The device posts an entry. -/
  | device (cqe : Cqe)
  | vcqInit (qid : Nat)
  | vcqFree (qid : Nat)
  /-- The application pops an entry of a VCQ and records it on `cmds[cid]`. -/
  | pop (qid : Nat)
  | reap (t : ι)
  | cancel (t : ι)
  | timer (t : ι)
  /-- The agent's next access; `expired` is what `unvmed_timer_after` says. -/
  | step (t : ι) (expired : Bool)
  deriving Repr

section Step

variable {ι : Type}

/-- `unvmed_cmd_put`: the last reference frees the command. -/
def State.cmdPut (s : State ι) (slot : Slot) : State ι :=
  let cmd := s.cmds slot
  if cmd.refcnt = 1 then
    { s with cmds := Function.update s.cmds slot {}, posted := Function.update s.posted slot false }
  else { s with cmds := Function.update s.cmds slot { cmd with refcnt := cmd.refcnt - 1 } }

/-- The delivery of `unvmed_cmd_cmpl`. A push into a full VCQ retries until there
is room, so it is a step that comes later. -/
def State.cmdCmpl (s : State ι) (slot : Slot) (cqe : Cqe) : State ι :=
  let cmd := s.cmds slot
  if cmd.wakeup then
    { s with
      cmds := Function.update s.cmds slot (cmd.wake cqe)
      nrCmds := s.nrCmds - 1
      delivered := Function.update s.delivered slot (s.delivered slot + 1) }
  else match vcqGet s.vcqMap cmd.vcq with
    | none => s
    | some vcqes =>
        { s with
          vcqMap := Function.update s.vcqMap cmd.vcq (some (vcqes ++ [⟨cqe, s.bdf, cmd.injected⟩]))
          delivered := Function.update s.delivered slot (s.delivered slot + 1) }

/-- An entry was handled: `nvme_cq_update_head`, or the next slot. -/
def State.handled (s : State ι) : After → State ι
  | .reap | .drain => { s with ring := s.ring.tail }
  | .sweep _ | .timer _ => s

def After.resume : After → Pc
  | .reap => .take .reap
  | .drain => .take .drain
  | .sweep i => .sweep i
  | .timer cid => .timerPut2 cid

/-- The slot `i` of the sweep; the conflict slot comes last. -/
def State.sweepSlot (s : State ι) (i : Nat) : Slot :=
  if i < s.qsize - 1 then .cmd i else .conflict

/-- The entry of `unvmed_put_cqe`. -/
def State.abortedCqe (s : State ι) (slot : Slot) : Cqe :=
  ⟨s.sqid, (s.cmds slot).cid, statusAborted⟩

variable [DecidableEq ι]

def State.goto (s : State ι) (t : ι) (pc : Pc) : State ι :=
  { s with pcs := Function.update s.pcs t pc }

/-- The next access of agent `t`. -/
def agentStep (s : State ι) (t : ι) (expired : Bool) : Option (State ι) :=
  match s.pcs t with
  | .idle => none
  | .take k => match s.ring with
      | cqe :: _ => some (s.goto t (.load cqe k))
      | [] => match k with
        | .drain => some (s.goto t (.sweep 0))
        | _ => some ({ s with cqLock := none }.goto t .idle)
  | .load cqe k =>
      if cqe.sqid ≠ s.sqid then some ((s.handled k).goto t k.resume)
      else if (s.cmds (.cmd cqe.cid)).state = .submitted then
        some (s.goto t (.mark (.cmd cqe.cid) cqe k))
      else some (s.goto t (.loadConflict cqe k))
  | .loadConflict cqe k =>
      let cmd := s.cmds .conflict
      if cmd.state ≠ .submitted ∨ cmd.cid ≠ cqe.cid then some ((s.handled k).goto t k.resume)
      else some (s.goto t (.mark .conflict cqe k))
  | .sweep i =>
      if i ≤ s.qsize - 1 then
        let slot := s.sweepSlot i
        match (s.cmds slot).state with
        | .submitted | .allocated =>
            some (s.goto t (.mark slot (s.abortedCqe slot) (.sweep (i + 1))))
        | _ => some (s.goto t (.sweep (i + 1)))
      else some ({ s with cqLock := none }.goto t .idle)
  | .timerGet cid =>
      if cid < s.qsize - 1 then
        let cmd := s.cmds (.cmd cid)
        if cmd.refcnt = 0 then some (s.goto t (.timerGet (cid + 1)))
        else some ({ s with cmds := Function.update s.cmds (.cmd cid)
                              { cmd with refcnt := cmd.refcnt + 1 } }.goto t (.timerCheck cid))
      else some ({ s with sqLock := none }.goto t .idle)
  | .timerCheck cid =>
      if (s.cmds (.cmd cid)).state = .submitted ∧ expired then some (s.goto t (.timerFlag cid))
      else some (s.goto t (.timerPut cid))
  | .timerFlag cid =>
      let cmd := s.cmds (.cmd cid)
      if cmd.refcnt = 0 then none
      else some ({ s with cmds := Function.update s.cmds (.cmd cid)
                            { cmd with refcnt := cmd.refcnt + 1, timedout := true } }.goto t
        (.mark (.cmd cid) ⟨s.sqid, cmd.cid, statusTimedOut⟩ (.timer cid)))
  | .mark slot cqe k =>
      some ({ s with cmds := s.cmds.setState slot .toBeCompleted }.goto t (.deliver slot cqe k))
  | .deliver slot cqe k => some (((s.cmdCmpl slot cqe).handled k).goto t k.resume)
  | .timerPut2 cid => some ((s.cmdPut (.cmd cid)).goto t (.timerPut cid))
  | .timerPut cid => some ((s.cmdPut (.cmd cid)).goto t (.timerGet (cid + 1)))

def step (s : State ι) : Act ι → Option (State ι)
  | .alloc slot cid vcq wakeup =>
      if (s.cmds slot).refcnt = 0 then
        some { s with cmds := Function.update s.cmds slot
                        { refcnt := 1, state := .allocated, wakeup := wakeup, vcq := vcq, cid := cid,
                          injected := if slot = .conflict then .conflict else .none } }
      else none
  | .post slot =>
      if (s.cmds slot).refcnt ≠ 0 ∧ s.posted slot = false ∧ s.sqLock = none then
        some { s with cmds := s.cmds.setState slot .submitted
                      nrCmds := s.nrCmds + 1
                      posted := Function.update s.posted slot true
                      delivered := Function.update s.delivered slot 0 }
      else none
  | .get slot =>
      let cmd := s.cmds slot
      if cmd.refcnt = 0 then none
      else some { s with cmds := Function.update s.cmds slot { cmd with refcnt := cmd.refcnt + 1 } }
  | .put slot => if (s.cmds slot).refcnt = 0 then none else some (s.cmdPut slot)
  | .device cqe => some { s with ring := s.ring ++ [cqe] }
  | .vcqInit qid => some { s with vcqMap := Function.update s.vcqMap qid (some []) }
  | .vcqFree qid => some { s with vcqMap := Function.update s.vcqMap qid none }
  | .pop qid => match s.vcqMap qid with
      | some (vcqe :: rest) =>
          let slot := Slot.cmd vcqe.cqe.cid
          let popped := { s with vcqMap := Function.update s.vcqMap qid (some rest) }
          if (s.cmds slot).state = .init then some popped
          else some { popped with
            cmds := Function.update s.cmds slot ((s.cmds slot).record vcqe.cqe) }
      | _ => none
  | .reap t =>
      if s.pcs t = .idle ∧ s.cqLock = none then
        some ({ s with cqLock := some t }.goto t (.take .reap))
      else none
  | .cancel t =>
      if s.pcs t = .idle ∧ s.cqLock = none then
        some ({ s with cqLock := some t }.goto t (.take .drain))
      else none
  | .timer t =>
      if s.pcs t = .idle ∧ s.sqLock = none then
        some ({ s with sqLock := some t }.goto t (.timerGet 0))
      else none
  | .step t expired => agentStep s t expired

end Step

/-- A queue with no command allocated, no VCQ and no agent running. -/
def start (ι : Type) (sqid bdf qsize : Nat) : State ι where
  sqid := sqid
  bdf := bdf
  qsize := qsize
  cmds := fun _ => {}
  ring := []
  vcqMap := fun _ => none
  nrCmds := 0
  cqLock := none
  sqLock := none
  pcs := fun _ => .idle
  posted := fun _ => false
  delivered := fun _ => 0

/-! ### At most one delivery -/

/-- 1 for an agent that has marked the command in `slot` and not delivered yet. -/
def Pc.pending (slot : Slot) : Pc → Nat
  | .deliver marked _ _ => if marked = slot then 1 else 0
  | _ => 0

/-- The state says that an agent has decided to complete the command. -/
def CmdState.Decided : CmdState → Prop
  | .toBeCompleted | .completed => True
  | _ => False

instance : DecidablePred CmdState.Decided := fun st => by
  cases st <;> unfold CmdState.Decided <;> infer_instance

section Safety

variable {ι : Type}

/-- Every posted command got at most one delivery since its post. -/
def State.AtMostOnce (s : State ι) : Prop := ∀ slot, s.posted slot = true → s.delivered slot ≤ 1

/-- The store of `TO_BE_COMPLETED` finds a command that nobody has marked or
completed, and a post finds no delivery under way. -/
def FirstToMark (s : State ι) : Act ι → Prop
  | .step t _ => match s.pcs t with
      | .mark slot _ _ => ¬ CmdState.Decided (s.cmds slot).state
      | _ => True
  | .post slot => ∀ t, (s.pcs t).pending slot = 0
  | _ => True

variable [Fintype ι]

instance (s : State ι) (a : Act ι) : Decidable (FirstToMark s a) := by
  unfold FirstToMark
  split
  · split <;> infer_instance
  all_goals infer_instance

/-- Deliveries made and under way. -/
def State.completions (s : State ι) (slot : Slot) : Nat :=
  s.delivered slot + tally (Pc.pending slot) s.pcs

/-- A posted command is referenced, has at most one completion, and none before
it is marked. -/
structure State.Inv (s : State ι) : Prop where
  referenced : ∀ slot, s.posted slot = true → (s.cmds slot).refcnt ≠ 0
  once : ∀ slot, s.posted slot = true → s.completions slot ≤ 1
  marked : ∀ slot, s.posted slot = true → ¬ CmdState.Decided (s.cmds slot).state →
    s.completions slot = 0

/-- What a step that completes nothing does to a command. -/
structure Calm (cmd cmd' : Cmd) : Prop where
  decided : CmdState.Decided cmd.state → CmdState.Decided cmd'.state
  refcnt : cmd.refcnt ≠ 0 → cmd'.refcnt ≠ 0

omit [Fintype ι] in
theorem Calm.rfl {cmd : Cmd} : Calm cmd cmd := ⟨id, id⟩

omit [Fintype ι] in
theorem calm_update {cmds : Cmds} {slot : Slot} {cmd : Cmd} (h : Calm (cmds slot) cmd) (x : Slot) :
    Calm (cmds x) (Function.update cmds slot cmd x) := by
  by_cases same : x = slot
  · subst same
    rwa [Function.update_self]
  · rw [Function.update_of_ne same]
    exact Calm.rfl

/-- **Step lemma.** A step that makes no completion and reopens no command. -/
theorem State.Inv.mono {s s' : State ι} (h : s.Inv)
    (posted : ∀ slot, s'.posted slot = true → s.posted slot = true)
    (calm : ∀ slot, s'.posted slot = true → Calm (s.cmds slot) (s'.cmds slot))
    (completions : ∀ slot, s'.completions slot ≤ s.completions slot) : s'.Inv := by
  refine ⟨fun slot was => (calm slot was).refcnt (h.referenced slot (posted slot was)), ?_, ?_⟩
  · intro slot was
    have := h.once slot (posted slot was)
    have := completions slot
    omega
  · intro slot was open_
    have := h.marked slot (posted slot was) fun decided => open_ ((calm slot was).decided decided)
    have := completions slot
    omega

theorem State.Inv.cmdPut {s : State ι} (h : s.Inv) (slot : Slot) : (s.cmdPut slot).Inv := by
  unfold State.cmdPut
  by_cases last : (s.cmds slot).refcnt = 1
  · simp only [last, if_true]
    refine h.mono ?_ ?_ fun x => Nat.le_refl _
    · intro x was
      by_cases same : x = slot
      · subst same
        simp at was
      · simpa [same] using was
    · intro x was
      by_cases same : x = slot
      · subst same
        simp at was
      · simp only [Function.update_of_ne same]
        exact Calm.rfl
  · simp only [last, if_false]
    refine h.mono (fun _ was => was) (fun x _ => calm_update ?_ x) fun x => Nat.le_refl _
    exact ⟨id, fun nonzero => by simp only at *; omega⟩

variable [DecidableEq ι]

theorem State.completions_goto (s : State ι) (t : ι) (pc : Pc) (slot : Slot) :
    (s.goto t pc).completions slot + (s.pcs t).pending slot =
      s.completions slot + pc.pending slot := by
  have := tally_update (Pc.pending slot) s.pcs t pc
  simp only [State.completions, State.goto]
  omega

/-- An agent moves on to an access that delivers nothing. -/
theorem State.Inv.goto {s : State ι} (h : s.Inv) (t : ι) {pc : Pc}
    (quiet : ∀ slot, pc.pending slot = 0) : (s.goto t pc).Inv := by
  refine h.mono (fun _ was => was) (fun _ _ => Calm.rfl) ?_
  intro slot
  have := s.completions_goto t pc slot
  have := quiet slot
  omega

omit [Fintype ι] [DecidableEq ι] in
theorem After.resume_pending (k : After) (slot : Slot) : k.resume.pending slot = 0 := by
  cases k <;> rfl

omit [DecidableEq ι] in
theorem State.Inv.locks {s : State ι} (h : s.Inv) (cqLock sqLock : Option ι) :
    ({ s with cqLock := cqLock, sqLock := sqLock } : State ι).Inv :=
  ⟨h.referenced, h.once, h.marked⟩

omit [DecidableEq ι] in
theorem State.Inv.handled {s : State ι} (h : s.Inv) (k : After) : (s.handled k).Inv := by
  cases k <;> exact ⟨h.referenced, h.once, h.marked⟩

omit [DecidableEq ι] in
/-- A change to one command that keeps its references and its mark. -/
theorem State.Inv.update {s : State ι} (h : s.Inv) {slot : Slot} {cmd : Cmd}
    (calm : Calm (s.cmds slot) cmd) :
    ({ s with cmds := Function.update s.cmds slot cmd } : State ι).Inv :=
  h.mono (fun _ was => was) (fun x _ => calm_update calm x) fun _ => Nat.le_refl _

/-- The first mark of a command promises its one delivery. -/
theorem State.Inv.mark {s : State ι} (h : s.Inv) {t : ι} {slot : Slot} {cqe : Cqe} {k : After}
    (hpc : s.pcs t = .mark slot cqe k) (first : ¬ CmdState.Decided (s.cmds slot).state) :
    ({ s with cmds := s.cmds.setState slot .toBeCompleted }.goto t (.deliver slot cqe k) :
      State ι).Inv := by
  have count : ∀ x, ({ s with cmds := s.cmds.setState slot .toBeCompleted }.goto t
      (.deliver slot cqe k) : State ι).completions x =
        s.completions x + if slot = x then 1 else 0 := fun x => by
    have := tally_update (Pc.pending x) s.pcs t (.deliver slot cqe k)
    simp only [hpc, Pc.pending] at this
    simp only [State.completions, State.goto]
    omega
  have calm : ∀ x, Calm (s.cmds x) (s.cmds.setState slot .toBeCompleted x) :=
    calm_update ⟨fun _ => trivial, id⟩
  refine ⟨fun x was => (calm x).refcnt (h.referenced x was), ?_, ?_⟩
  · intro x was
    rw [count x]
    split
    · subst_vars
      have := h.marked x was first
      omega
    · exact h.once x was
  · intro x was open_
    rw [count x]
    by_cases same : slot = x
    · subst same
      simp [State.goto, Cmds.setState, CmdState.Decided] at open_
    · rw [if_neg same]
      exact h.marked x was fun decided => open_ ((calm x).decided decided)

omit [Fintype ι] [DecidableEq ι] in
/-- `unvmed_cmd_cmpl` delivers once or drops the entry. -/
theorem cmdCmpl_cases (s : State ι) (slot : Slot) (cqe : Cqe) :
    s.cmdCmpl slot cqe = s ∨ ∃ cmds vcqMap nrCmds, (∀ x, Calm (s.cmds x) (cmds x)) ∧
      s.cmdCmpl slot cqe = { s with
        cmds := cmds, vcqMap := vcqMap, nrCmds := nrCmds,
        delivered := Function.update s.delivered slot (s.delivered slot + 1) } := by
  unfold State.cmdCmpl
  by_cases wakeup : (s.cmds slot).wakeup = true
  · refine Or.inr ⟨_, _, _, calm_update ?_, if_pos wakeup⟩
    exact ⟨fun _ => trivial, id⟩
  · simp only [wakeup, if_false, Bool.false_eq_true]
    cases vcqGet s.vcqMap (s.cmds slot).vcq with
    | none => exact Or.inl rfl
    | some vcqes => exact Or.inr ⟨_, _, _, fun _ => Calm.rfl, rfl⟩

/-- A delivery under way becomes a delivery made, or is dropped. -/
theorem State.Inv.deliver {s : State ι} (h : s.Inv) {t : ι} {slot : Slot} {cqe : Cqe} {k : After}
    (hpc : s.pcs t = .deliver slot cqe k) :
    (((s.cmdCmpl slot cqe).handled k).goto t k.resume).Inv := by
  rcases cmdCmpl_cases s slot cqe with same | ⟨cmds, vcqMap, nrCmds, calm, made⟩
  · rw [same]
    exact (h.handled k).goto t k.resume_pending
  · have inv : ((s.cmdCmpl slot cqe).goto t k.resume).Inv := by
      rw [made]
      refine h.mono (fun _ was => was) (fun x _ => calm x) ?_
      intro x
      have moved := tally_update (Pc.pending x) s.pcs t k.resume
      rw [hpc, k.resume_pending] at moved
      simp only [State.completions, State.goto, Pc.pending] at moved ⊢
      by_cases same : slot = x
      · subst same
        simp only [Function.update_self, if_true] at *
        omega
      · rw [Function.update_of_ne (Ne.symm same)]
        omega
    cases k <;> exact ⟨inv.referenced, inv.once, inv.marked⟩

theorem agentStep_inv {s s' : State ι} {t : ι} {expired : Bool} (h : s.Inv)
    (guard : FirstToMark s (.step t expired)) (hstep : agentStep s t expired = some s') :
    s'.Inv := by
  cases hpc : s.pcs t <;>
    simp only [agentStep, hpc, Option.some.injEq, reduceCtorEq] at hstep
  case take k =>
      split at hstep
      · cases hstep
        exact h.goto t fun _ => rfl
      · split at hstep <;> cases hstep
        · exact h.goto t fun _ => rfl
        · exact (h.locks none s.sqLock).goto t fun _ => rfl
  case load cqe k =>
      split at hstep
      · cases hstep
        exact (h.handled k).goto t k.resume_pending
      · split at hstep <;> cases hstep <;> exact h.goto t fun _ => rfl
  case loadConflict cqe k =>
      split at hstep <;> cases hstep
      · exact (h.handled k).goto t k.resume_pending
      · exact h.goto t fun _ => rfl
  case sweep i =>
      split at hstep
      · split at hstep <;> cases hstep <;> exact h.goto t fun _ => rfl
      · cases hstep
        exact (h.locks none s.sqLock).goto t fun _ => rfl
  case timerGet cid =>
      split at hstep
      · split at hstep <;> cases hstep
        · exact h.goto t fun _ => rfl
        · refine State.Inv.goto (State.Inv.update h ?_) t fun _ => rfl
          exact ⟨id, fun _ => Nat.succ_ne_zero _⟩
      · cases hstep
        exact (h.locks s.cqLock none).goto t fun _ => rfl
  case timerCheck cid => split at hstep <;> cases hstep <;> exact h.goto t fun _ => rfl
  case timerFlag cid =>
      split at hstep <;> cases hstep
      refine State.Inv.goto (State.Inv.update h ?_) t fun _ => rfl
      exact ⟨id, fun _ => Nat.succ_ne_zero _⟩
  case mark slot cqe k =>
      subst hstep
      simp only [FirstToMark, hpc] at guard
      exact h.mark hpc guard
  case deliver slot cqe k =>
      subst hstep
      exact h.deliver hpc
  case timerPut2 cid =>
      subst hstep
      exact (h.cmdPut _).goto t fun _ => rfl
  case timerPut cid =>
      subst hstep
      exact (h.cmdPut _).goto t fun _ => rfl

theorem step_inv {s s' : State ι} {a : Act ι} (h : s.Inv) (guard : FirstToMark s a)
    (hstep : step s a = some s') : s'.Inv := by
  cases a with
  | alloc slot cid vcq wakeup =>
      simp only [step] at hstep
      split at hstep <;> cases hstep
      rename_i free
      refine h.mono (fun _ was => was) ?_ fun _ => Nat.le_refl _
      intro x was
      by_cases same : x = slot
      · subst same
        exact absurd free (h.referenced x was)
      · simp only [Function.update_of_ne same]
        exact Calm.rfl
  | post slot =>
      simp only [step] at hstep
      split at hstep <;> cases hstep
      rename_i enabled
      have none_pending : tally (Pc.pending slot) s.pcs = 0 := tally_eq_zero guard
      have calm : ∀ x, (s.cmds x).refcnt ≠ 0 →
          (s.cmds.setState slot .submitted x).refcnt ≠ 0 := fun x nonzero => by
        by_cases same : x = slot
        · subst same
          simpa [Cmds.setState] using nonzero
        · simpa [Cmds.setState, same] using nonzero
      have posted : ∀ x, x ≠ slot → Function.update s.posted slot true x = true →
          s.posted x = true := fun x other was => by simpa [other] using was
      refine ⟨?_, ?_, ?_⟩
      · intro x was
        by_cases same : x = slot
        · subst same
          exact calm x enabled.1
        · exact calm x (h.referenced x (posted x same was))
      · intro x was
        by_cases same : x = slot
        · subst same
          simp [State.completions, none_pending]
        · have := h.once x (posted x same was)
          simpa [State.completions, same] using this
      · intro x was open_
        by_cases same : x = slot
        · subst same
          simp [State.completions, none_pending]
        · have := h.marked x (posted x same was) (by simpa [Cmds.setState, same] using open_)
          simpa [State.completions, same] using this
  | get slot =>
      simp only [step] at hstep
      split at hstep <;> cases hstep
      apply State.Inv.update h
      exact ⟨id, fun _ => Nat.succ_ne_zero _⟩
  | put slot =>
      simp only [step] at hstep
      split at hstep <;> cases hstep
      exact h.cmdPut slot
  | device cqe | vcqInit qid | vcqFree qid =>
      cases hstep
      exact ⟨h.referenced, h.once, h.marked⟩
  | pop qid =>
      simp only [step] at hstep
      split at hstep
      · split at hstep <;> cases hstep
        · exact ⟨h.referenced, h.once, h.marked⟩
        · refine h.mono (fun _ was => was) (fun x _ => calm_update ?_ x) fun _ => Nat.le_refl _
          exact ⟨fun _ => trivial, id⟩
      · cases hstep
  | reap t | cancel t =>
      simp only [step] at hstep
      split at hstep <;> cases hstep
      exact (h.locks (some t) s.sqLock).goto t fun _ => rfl
  | timer t =>
      simp only [step] at hstep
      split at hstep <;> cases hstep
      exact (h.locks s.cqLock (some t)).goto t fun _ => rfl
  | step t expired => exact agentStep_inv h guard hstep

/-- **At most one delivery.** For every queue, any number of agents and every
interleaving in which each mark is the first and no post falls between a mark
and its delivery. -/
theorem delivered_at_most_once {sqid bdf qsize : Nat} {as : List (Act ι)} {s : State ι}
    (guard : Guarded step FirstToMark (start ι sqid bdf qsize) as)
    (hrun : run step (start ι sqid bdf qsize) as = some s) : s.AtMostOnce := by
  have initial : (start ι sqid bdf qsize).Inv :=
    ⟨fun _ was => by simp [start] at was, fun _ was => by simp [start] at was,
      fun _ was => by simp [start] at was⟩
  have h : s.Inv := run_inv (fun _ _ _ h g hs => step_inv h g hs) initial guard hrun
  intro slot was
  have := h.once slot was
  simp only [State.completions] at this
  omega

/-- A reaper completes command 0 and the timer, in between, command 1; then the
queue is cancelled. -/
def orderlyRun : List (Act Thread) :=
  [.vcqInit 1, .alloc (.cmd 0) 0 1 false, .post (.cmd 0), .alloc (.cmd 1) 1 0 true, .post (.cmd 1),
    .device ⟨1, 0, 0⟩, .reap .a, .step .a false, .step .a false, .timer .b, .step .b false,
    .step .b false, .step .a false, .step .b false, .step .b false, .step .b true, .step .b false,
    .step .b false, .step .a false, .step .b false, .step .a false, .cancel .a, .step .a false]

theorem delivered_at_most_once_orderly :
    ∃ s, run step (start Thread 1 0 4) orderlyRun = some s ∧ s.delivered (.cmd 0) = 1 ∧
      s.delivered (.cmd 1) = 1 ∧ s.AtMostOnce :=
  ⟨_, rfl, rfl, rfl,
    delivered_at_most_once
      (show Guarded step FirstToMark (start Thread 1 0 4) orderlyRun by decide) rfl⟩

/-- Reaper and timer both load `SUBMITTED` before either of them stores. -/
def racingRun : List (Act Thread) :=
  [.alloc (.cmd 0) 0 0 true, .post (.cmd 0), .device ⟨1, 0, 0⟩, .reap .a, .step .a false,
    .step .a false, .timer .b, .step .b false, .step .b true, .step .b false, .step .b false,
    .step .a false, .step .b false, .step .a false]

/-- The unguarded code delivers two completions of one command. -/
theorem reaper_and_timer_both_deliver :
    ¬ ∀ (as : List (Act Thread)) (s : State Thread),
      run step (start Thread 1 0 4) as = some s → s.AtMostOnce := by
  intro all
  have bad := all racingRun _ rfl (.cmd 0) rfl
  exact absurd bad (by decide)

end Safety

end Unvmed.Race
