import Unvmed.Lib.Run
import Unvmed.Lib.Tally
import Unvmed.Basic

/-!
The path of a command through the driver (`lib/libunvmed.c`, `lib/libunvmed-vcq.c`).

A controller has submission queues that share completion queues. A command is
allocated, posted, completed by the device, taken from its CQ by the interrupt
reaper or by a polling caller, delivered by a wakeup or through a VCQ, popped by
the application, and freed; it can also time out or be cancelled. One action is
one iteration of the loop that does it, so that callers, reapers and
cancellation interleave between iterations.

`Effect` says once what an action can do; the results about routing, about
conflict commands, about the in-flight counter and about VCQ ids are case
analyses over it.
-/

namespace Unvmed.Path

open Lib

/-- A pointer to a command of the controller. -/
structure Ref where
  sqid : Nat
  slot : Slot
  deriving DecidableEq, Repr

/-- The queues of the controller: `u->sqs[sqid]` and the CQ it is mapped to, and
what `unvmed_cq_irq_enabled` says of a CQ. -/
structure Topo where
  cqOf : Nat → Option Nat
  qsize : Nat → Nat
  irq : Nat → Bool
  bdf : Nat

/-- SQ 1 on CQ 1, with four entries. -/
def Topo.one (irq : Bool) : Topo := ⟨fun q => if q = 1 then some 1 else none, fun _ => 4, fun _ => irq, 0⟩

/-- An entry of a VCQ. `owner` is the command it was pushed for, and `home` the
VCQ that was registered under the command's id when it was posted; both are
there for the statements only. -/
structure Entry where
  vcqe : Vcqe
  owner : Ref
  home : Option (Option Nat)
  deriving DecidableEq, Repr

/-- `struct unvme_vcq`. `reg` numbers the calls of `unvmed_vcq_init`. -/
structure Vcq where
  reg : Nat
  qsize : Nat
  entries : List Entry
  deriving DecidableEq, Repr

def Vcq.push (vcq : Vcq) (e : Entry) : Vcq := { vcq with entries := vcq.entries ++ [e] }

/-- A call of `__unvmed_cq_run_n` on behalf of an SQ, or of `__unvmed_vcq_run_n`. -/
structure Call where
  usq : Option Nat
  /-- The caller's VCQ: its id and registration. -/
  vcq : Option (Nat × Nat)
  nrCqes : Nat
  nowait : Bool
  /-- The entries to return; `nr` is their number. -/
  got : List Entry := []
  /-- The loop was left by `break`. -/
  done : Bool := false
  deriving DecidableEq, Repr

structure State (ι : Type) where
  cmds : Ref → Cmd
  /-- Entries of each CQ that are not consumed yet. -/
  rings : Nat → List Cqe
  /-- `__vcq_map` -/
  vcqs : Nat → Option Vcq
  /-- The free stack of VCQ ids. -/
  freeIds : List Nat
  nextReg : Nat
  /-- `u->nr_cmds` -/
  nrCmds : Int
  /-- `usq->cmd_count[opcode]` -/
  cmdCount : Nat → Nat → Nat
  calls : ι → Option Call
  /-- The commands the device works on, by queue id and command id. -/
  sqes : List (Nat × Nat)
  /-- `none` for a command that is not posted; else the registration of the VCQ
  its id named at the post. -/
  home : Ref → Option (Option Nat)
  /-- The posts whose completion was not handed to the application yet. -/
  pending : List Ref

inductive Act (ι : Type) where
  /-- `__unvmed_cmd_alloc` and the fields the caller sets before it posts. -/
  | alloc (r : Ref) (cid vcq opcode : Nat) (wakeup : Bool)
  /-- `unvmed_cmd_post` -/
  | post (r : Ref)
  /-- The last `unvmed_cmd_put`. -/
  | free (r : Ref)
  /-- The device completes the `i`-th command it works on. -/
  | device (i status : Nat)
  /-- One iteration of `__unvmed_reap_cqe`, or of the first loop of `unvmed_cancel_sq`. -/
  | reap (cqid : Nat)
  /-- `__unvmed_cq_run_n` -/
  | cqRun (t : ι) (sqid vcq nrCqes : Nat) (nowait : Bool)
  /-- `__unvmed_vcq_run_n` -/
  | vcqRun (t : ι) (vcq nrCqes : Nat) (nowait : Bool)
  /-- One iteration of the loop of either. -/
  | iter (t : ι)
  /-- The end of either. -/
  | ret (t : ι)
  /-- One iteration of `unvmed_timer_handler` that finds an expired command. -/
  | timeout (r : Ref)
  /-- One iteration of the sweep of `unvmed_cancel_sq`. -/
  | cancel (r : Ref)
  /-- One iteration of `unvmed_cancel_allocated_state_cmds`. -/
  | cancelAllocated (r : Ref)
  | vcqInit (qsize : Nat)
  | vcqFree (qid : Nat)
  deriving Repr

section Completion

variable {ι : Type}

def State.setCmd (s : State ι) (r : Ref) (cmd : Cmd) : State ι :=
  { s with cmds := Function.update s.cmds r cmd }

def State.setVcq (s : State ι) (qid : Nat) (vcq : Option Vcq) : State ι :=
  { s with vcqs := Function.update s.vcqs qid vcq }

/-- `nvme_cq_update_head` -/
def State.popRing (s : State ι) (cqid : Nat) : State ι :=
  { s with rings := Function.update s.rings cqid (s.rings cqid).tail }

/-- `unvmed_get_cmd` -/
def State.getCmd (s : State ι) (sqid cid : Nat) : Option Ref :=
  if (s.cmds ⟨sqid, .cmd cid⟩).state = .init then none else some ⟨sqid, .cmd cid⟩

/-- `unvmed_get_cmd_on_reaper` -/
def State.getCmdOnReaper (τ : Topo) (s : State ι) (cqe : Cqe) : Option Ref :=
  match τ.cqOf cqe.sqid with
  | none => none
  | some _ =>
      if (s.cmds ⟨cqe.sqid, .cmd cqe.cid⟩).state ≠ .submitted then
        let cmd := s.cmds ⟨cqe.sqid, .conflict⟩
        if cmd.state ≠ .submitted ∨ cmd.cid ≠ cqe.cid then none else some ⟨cqe.sqid, .conflict⟩
      else some ⟨cqe.sqid, .cmd cqe.cid⟩

/-- The entry `__unvmed_vcq_push` writes for a command. -/
def State.entryFor (τ : Topo) (s : State ι) (r : Ref) (cqe : Cqe) : Entry :=
  ⟨⟨cqe, τ.bdf, (s.cmds r).injected⟩, r, s.home r⟩

/-- `unvmed_vcq_push`: nothing without a registered VCQ, and no result while the
VCQ is full, where the source retries. -/
def State.vcqPush (τ : Topo) (s : State ι) (r : Ref) (cqe : Cqe) : Option (State ι) :=
  let cmd := s.cmds r
  match vcqGet s.vcqs cmd.vcq with
  | none => some s
  | some vcq =>
      if vcq.entries.length + 1 ≥ vcq.qsize then none
      else some (s.setVcq cmd.vcq (some (vcq.push (s.entryFor τ r cqe))))

/-- `unvmed_cmd_cmpl_wakeup`; the wakeup hands the completion to the application. -/
def State.cmdCmplWakeup (s : State ι) (r : Ref) (cqe : Cqe) : State ι × Bool :=
  -- The store of `TO_BE_COMPLETED` comes first; the wakeup overwrites it.
  if (s.cmds r).wakeup then
    ({ s.setCmd r ((s.cmds r).wake cqe) with
      nrCmds := s.nrCmds - 1, pending := s.pending.erase r }, true)
  else (s.setCmd r ((s.cmds r).setState .toBeCompleted), false)

/-- `atomic_inc(&cmd->usq->cmd_count[cmd->sqe.opcode])` -/
def State.incCount (s : State ι) (r : Ref) : State ι :=
  let counts := s.cmdCount r.sqid
  let opcode := (s.cmds r).opcode
  { s with cmdCount :=
      Function.update s.cmdCount r.sqid (Function.update counts opcode (counts opcode + 1)) }

/-- `unvmed_cmd_cmpl` -/
def State.cmdCmpl (τ : Topo) (s : State ι) (r : Ref) (cqe : Cqe) : Option (State ι) :=
  match (s.incCount r).cmdCmplWakeup r cqe with
  | (s, true) => some s
  | (s, false) => s.vcqPush τ r cqe

/-- `unvmed_put_cqe` -/
def State.putCqe (τ : Topo) (s : State ι) (r : Ref) : Option (State ι) :=
  s.cmdCmpl τ r ⟨r.sqid, (s.cmds r).cid, statusAborted⟩

/-- `unvmed_cmd_timeout` -/
def State.cmdTimeout (τ : Topo) (s : State ι) (r : Ref) : Option (State ι) :=
  let s := s.setCmd r { s.cmds r with timedout := true }
  s.cmdCmpl τ r ⟨r.sqid, (s.cmds r).cid, statusTimedOut⟩

/-- `unvmed_vcq_pop` on the caller's VCQ; a VCQ that was freed is empty. -/
def State.vcqPop (s : State ι) : Option (Nat × Nat) → Option (Entry × State ι)
  | none => none
  | some (qid, reg) => match s.vcqs qid with
      | none => none
      | some vcq =>
          if vcq.reg = reg then match vcq.entries with
            | [] => none
            | e :: rest => some (e, s.setVcq qid (some { vcq with entries := rest }))
          else none

/-- The command slots that the timer and the cancellations walk over. -/
def Topo.inSlots (τ : Topo) (r : Ref) : Bool := match r.slot with
  | .cmd cid => (τ.cqOf r.sqid).isSome && decide (cid < τ.qsize r.sqid - 1)
  | .conflict => false

end Completion

section Step

variable {ι : Type} [DecidableEq ι]

def State.setCall (s : State ι) (t : ι) (c : Option Call) : State ι :=
  { s with calls := Function.update s.calls t c }

/-- One iteration of `__unvmed_cq_run_n` for `sqid` while the CQ has interrupts:
the entry is recorded on `cmds[cid]` of the caller's queue. -/
def State.irqIter (s : State ι) (t : ι) (c : Call) (sqid : Nat) : Option (State ι) :=
  match s.vcqPop c.vcq with
  | none => if c.nowait then some (s.setCall t (some { c with done := true })) else none
  | some (e, s) => match s.getCmd sqid e.vcqe.cqe.cid with
      | none => some (s.setCall t (some c))
      | some r => some ((s.setCmd r ((s.cmds r).record e.vcqe.cqe)).setCall t
          (some { c with got := c.got ++ [e] }))

/-- One iteration without interrupts: `__unvmed_get_completion`. -/
def State.pollIter (τ : Topo) (s : State ι) (t : ι) (c : Call) (sqid cqid : Nat) :
    Option (State ι) :=
  let again := some { c with done := c.nowait }
  match s.vcqPop c.vcq with
  | some (e, s) => match s.getCmd sqid e.vcqe.cqe.cid with
      | none => some (s.setCall t again)
      | some r => some ((s.setCmd r ((s.cmds r).record e.vcqe.cqe)).setCall t
          (some { c with got := c.got ++ [e] }))
  | none => match s.rings cqid with
      | [] => some (s.setCall t again)
      | cqe :: _ => match s.getCmd sqid cqe.cid with
          | none => some ((s.popRing cqid).setCall t again)
          | some r => (s.cmdCmpl τ r cqe).map fun s => (s.popRing cqid).setCall t again

/-- One iteration of `__unvmed_vcq_run_n`. -/
def State.vcqIter (s : State ι) (t : ι) (c : Call) : Option (State ι) :=
  match s.vcqPop c.vcq with
  | none => if c.nowait then some (s.setCall t (some { c with done := true })) else none
  | some (e, s) => some (s.setCall t (some { c with got := c.got ++ [e] }))

def State.iter (τ : Topo) (s : State ι) (t : ι) (c : Call) : Option (State ι) :=
  if c.done = true ∨ c.got.length ≥ c.nrCqes then none
  else match c.usq with
    | none => s.vcqIter t c
    | some sqid => match τ.cqOf sqid with
        | none => none
        | some cqid =>
            if τ.irq cqid then s.irqIter t c sqid else s.pollIter τ t c sqid cqid

/-- The caller's VCQ as the calls take it. -/
def State.vcqArg (s : State ι) (qid : Nat) : Option (Nat × Nat) :=
  (vcqGet s.vcqs qid).map fun vcq => (qid, vcq.reg)

def step (τ : Topo) (s : State ι) : Act ι → Option (State ι)
  | .alloc r cid vcq opcode wakeup =>
      if (s.cmds r).state = .init ∧ s.home r = none ∧ (τ.cqOf r.sqid).isSome then
        some (s.setCmd r
          { refcnt := 1, state := .allocated, wakeup := wakeup, vcq := vcq, opcode := opcode,
            cid := r.slot.cidOr cid,
            injected := if r.slot = .conflict then .conflict else .none })
      else none
  | .post r =>
      if (s.cmds r).state ≠ .init ∧ s.home r = none then
        some { s.setCmd r ((s.cmds r).setState .submitted) with
          nrCmds := s.nrCmds + 1
          sqes := s.sqes ++ [(r.sqid, (s.cmds r).cid)]
          home := Function.update s.home r
            (some ((vcqGet s.vcqs (s.cmds r).vcq).map fun vcq => vcq.reg))
          pending := r :: s.pending }
      else none
  | .free r =>
      if (s.cmds r).state ≠ .init ∧ (s.cmds r).state ≠ .submitted then
        some { s.setCmd r {} with home := Function.update s.home r none }
      else none
  | .device i status => match s.sqes[i]? with
      | none => none
      | some (sqid, cid) => match τ.cqOf sqid with
          | none => none
          | some cqid => some { s with
              sqes := s.sqes.eraseIdx i
              rings := Function.update s.rings cqid (s.rings cqid ++ [⟨sqid, cid, status⟩]) }
  | .reap cqid => match s.rings cqid with
      | [] => none
      | cqe :: _ => match s.getCmdOnReaper τ cqe with
          | none => some (s.popRing cqid)
          | some r => (s.cmdCmpl τ r cqe).map fun s => s.popRing cqid
  | .cqRun t sqid vcq nrCqes nowait =>
      if s.calls t = none ∧ (τ.cqOf sqid).isSome then
        some (s.setCall t (some ⟨some sqid, s.vcqArg vcq, nrCqes, nowait, [], false⟩))
      else none
  | .vcqRun t vcq nrCqes nowait =>
      if s.calls t = none then
        some (s.setCall t (some ⟨none, s.vcqArg vcq, nrCqes, nowait, [], false⟩))
      else none
  | .iter t => match s.calls t with
      | none => none
      | some c => s.iter τ t c
  | .ret t => match s.calls t with
      | none => none
      | some c =>
          if c.done = true ∨ c.got.length ≥ c.nrCqes then
            some { s.setCall t none with
              nrCmds := s.nrCmds - c.got.length
              pending := s.pending.diff (c.got.map Entry.owner) }
          else none
  | .timeout r =>
      if τ.inSlots r ∧ (s.cmds r).state = .submitted then s.cmdTimeout τ r else none
  | .cancel r =>
      if τ.inSlots r ∨ r.slot = .conflict then
        match (s.cmds r).state with
        | .submitted | .allocated => s.putCqe τ r
        | _ => some s
      else none
  | .cancelAllocated r =>
      if τ.inSlots r then
        if (s.cmds r).state = .allocated then s.putCqe τ r else some s
      else none
  | .vcqInit qsize => match s.freeIds with
      | [] => some s
      | qid :: rest => some { s.setVcq qid (some ⟨s.nextReg, qsize, []⟩) with
          freeIds := rest, nextReg := s.nextReg + 1 }
  | .vcqFree qid =>
      if (s.vcqs qid).isSome then some { s.setVcq qid none with freeIds := qid :: s.freeIds }
      else none

/-- The entry that the next iteration of `t`'s call takes from a CQ, with the SQ it
polls for. -/
def State.polls (τ : Topo) (s : State ι) (t : ι) : Option (Nat × Cqe) :=
  match s.calls t with
  | none => none
  | some c => match c.usq with
    | none => none
    | some sqid => match τ.cqOf sqid with
      | none => none
      | some cqid =>
          if τ.irq cqid = false ∧ s.vcqPop c.vcq = none then (s.rings cqid).head?.map (sqid, ·)
          else none

/-- The entry that the next iteration of `t`'s call pops from its VCQ and records
on a command, with the SQ it runs for. -/
def State.pops (s : State ι) (t : ι) : Option (Nat × Entry) :=
  match s.calls t with
  | none => none
  | some c => match c.usq with
    | none => none
    | some sqid => (s.vcqPop c.vcq).map fun pop => (sqid, pop.1)

end Step

/-- No command is allocated and no VCQ is registered. -/
def start (ι : Type) : State ι where
  cmds := fun _ => {}
  rings := fun _ => []
  vcqs := fun _ => none
  freeIds := List.range' 1 (vcqMax - 1)
  nextReg := 0
  nrCmds := 0
  cmdCount := fun _ _ => 0
  calls := fun _ => none
  sqes := []
  home := fun _ => none
  pending := []

/-! ### The entries of one command -/

/-- The entries among `es` that belong to `r`. -/
def owned (r : Ref) (es : List Entry) : Nat := (es.map Entry.owner).count r

theorem owned_append (r : Ref) (es : List Entry) (e : Entry) :
    owned r (es ++ [e]) = owned r es + if e.owner = r then 1 else 0 := by
  simp [owned, List.count_singleton]

theorem owned_cons (r : Ref) (e : Entry) (es : List Entry) :
    owned r (e :: es) = owned r es + if e.owner = r then 1 else 0 := by
  simp [owned, List.count_cons]

/-- The entries for `r` in one VCQ. -/
def inVcq (r : Ref) : Option Vcq → Nat
  | none => 0
  | some vcq => owned r vcq.entries

theorem inVcq_push (r : Ref) (vcq : Vcq) (e : Entry) :
    inVcq r (some (vcq.push e)) = inVcq r (some vcq) + if e.owner = r then 1 else 0 :=
  owned_append r vcq.entries e

/-! ### What an action does -/

section Effects

variable {ι : Type}

/-- The three outcomes of `unvmed_cmd_cmpl`. -/
inductive Completed (τ : Topo) (s : State ι) (r : Ref) (cqe : Cqe) : State ι → Prop where
  | woken (wakeup : (s.cmds r).wakeup = true) :
      Completed τ s r cqe
        { (s.incCount r).setCmd r ((s.cmds r).wake cqe) with
          nrCmds := s.nrCmds - 1, pending := s.pending.erase r }
  | pushed {vcq : Vcq} (silent : (s.cmds r).wakeup = false)
      (registered : vcqGet s.vcqs (s.cmds r).vcq = some vcq) :
      Completed τ s r cqe
        (((s.incCount r).setCmd r ((s.cmds r).setState .toBeCompleted)).setVcq (s.cmds r).vcq
          (some (vcq.push (s.entryFor τ r cqe))))
  | dropped (silent : (s.cmds r).wakeup = false)
      (unregistered : vcqGet s.vcqs (s.cmds r).vcq = none) :
      Completed τ s r cqe ((s.incCount r).setCmd r ((s.cmds r).setState .toBeCompleted))

theorem cmdCmpl_cases {τ : Topo} {s s' : State ι} {r : Ref} {cqe : Cqe}
    (h : s.cmdCmpl τ r cqe = some s') : Completed τ s r cqe s' := by
  have counted : (s.incCount r).cmds = s.cmds := rfl
  unfold State.cmdCmpl State.cmdCmplWakeup at h
  rw [counted] at h
  cases wakeup : (s.cmds r).wakeup with
  | true =>
      rw [wakeup, if_pos rfl] at h
      cases h
      exact .woken wakeup
  | false =>
      rw [wakeup, if_neg Bool.false_ne_true] at h
      simp only [State.vcqPush, State.setCmd, State.entryFor, Function.update_self,
        Cmd.setState_vcq, Cmd.setState_injected] at h
      split at h
      · cases h
        exact .dropped wakeup ‹_›
      · split at h <;> cases h
        exact .pushed wakeup ‹_›

/-- A completion changes one command, which keeps its id and its VCQ, and
neither the CQs nor the device. -/
theorem Completed.cmds {τ : Topo} {s s₁ : State ι} {r : Ref} {cqe : Cqe}
    (h : Completed τ s r cqe s₁) : ∃ cmd, s₁.cmds = Function.update s.cmds r cmd ∧
      cmd.cid = (s.cmds r).cid ∧ (cmd.state = .toBeCompleted ∨ cmd.state = .completed) := by
  cases h with
  | woken wakeup => exact ⟨_, rfl, rfl, Or.inr rfl⟩
  | pushed silent registered => exact ⟨_, rfl, rfl, Or.inl rfl⟩
  | dropped silent unregistered => exact ⟨_, rfl, rfl, Or.inl rfl⟩

theorem Completed.rings {τ : Topo} {s s₁ : State ι} {r : Ref} {cqe : Cqe}
    (h : Completed τ s r cqe s₁) : s₁.rings = s.rings := by
  cases h <;> rfl

theorem Completed.sqes {τ : Topo} {s s₁ : State ι} {r : Ref} {cqe : Cqe}
    (h : Completed τ s r cqe s₁) : s₁.sqes = s.sqes := by
  cases h <;> rfl

theorem Completed.home {τ : Topo} {s s₁ : State ι} {r : Ref} {cqe : Cqe}
    (h : Completed τ s r cqe s₁) : s₁.home = s.home := by
  cases h <;> rfl

theorem Completed.calls {τ : Topo} {s s₁ : State ι} {r : Ref} {cqe : Cqe}
    (h : Completed τ s r cqe s₁) : s₁.calls = s.calls := by
  cases h <;> rfl

theorem getCmd_some {s : State ι} {sqid cid : Nat} {r : Ref} (h : s.getCmd sqid cid = some r) :
    r = ⟨sqid, .cmd cid⟩ ∧ (s.cmds ⟨sqid, .cmd cid⟩).state ≠ .init := by
  unfold State.getCmd at h
  split at h <;> cases h
  exact ⟨rfl, ‹_›⟩

/-- The reaper's lookup finds the resident command if it is submitted, else the
conflict command if it is submitted with that id. -/
theorem getCmdOnReaper_some {τ : Topo} {s : State ι} {cqe : Cqe} {r : Ref}
    (h : s.getCmdOnReaper τ cqe = some r) : (s.cmds r).state = .submitted ∧ r.sqid = cqe.sqid ∧
      (r.slot = .cmd cqe.cid ∨ r.slot = .conflict ∧ (s.cmds r).cid = cqe.cid ∧
        (s.cmds ⟨cqe.sqid, .cmd cqe.cid⟩).state ≠ .submitted) := by
  simp only [State.getCmdOnReaper] at h
  split at h
  · cases h
  · split at h
    · split at h <;> cases h
      rename_i resident found
      simp only [ne_eq, not_or, not_not] at found
      exact ⟨found.1, rfl, Or.inr ⟨rfl, found.2, resident⟩⟩
    · cases h
      rename_i resident
      exact ⟨not_not.mp resident, rfl, Or.inl rfl⟩

theorem vcqPop_cases {s s' : State ι} {arg : Option (Nat × Nat)} {e : Entry}
    (h : s.vcqPop arg = some (e, s')) :
    ∃ qid vcq rest, s.vcqs qid = some vcq ∧ vcq.entries = e :: rest ∧
      s' = s.setVcq qid (some { vcq with entries := rest }) := by
  unfold State.vcqPop at h
  split at h
  · cases h
  · rename_i qid reg
    split at h
    · cases h
    · rename_i vcq found
      split at h
      · split at h <;> cases h
        exact ⟨qid, vcq, _, found, ‹_›, rfl⟩
      · cases h

variable [DecidableEq ι]

/-- What an action can do to the state it is taken from. -/
inductive Effect (τ : Topo) (s : State ι) : Act ι → State ι → Prop where
  | alloc {r : Ref} {cid vcq opcode : Nat} {wakeup : Bool} (empty : (s.cmds r).state = .init)
      (unposted : s.home r = none) :
      Effect τ s (.alloc r cid vcq opcode wakeup) (s.setCmd r
        { refcnt := 1, state := .allocated, wakeup := wakeup, vcq := vcq, opcode := opcode,
          cid := r.slot.cidOr cid, injected := if r.slot = .conflict then .conflict else .none })
  | post {r : Ref} (live : (s.cmds r).state ≠ .init) (unposted : s.home r = none) :
      Effect τ s (.post r) { s.setCmd r ((s.cmds r).setState .submitted) with
        nrCmds := s.nrCmds + 1
        sqes := s.sqes ++ [(r.sqid, (s.cmds r).cid)]
        home := Function.update s.home r
          (some ((vcqGet s.vcqs (s.cmds r).vcq).map fun vcq => vcq.reg))
        pending := r :: s.pending }
  | free {r : Ref} (live : (s.cmds r).state ≠ .init) (settled : (s.cmds r).state ≠ .submitted) :
      Effect τ s (.free r) { s.setCmd r {} with home := Function.update s.home r none }
  | device {i status sqid cid cqid : Nat} (working : s.sqes[i]? = some (sqid, cid))
      (mapped : τ.cqOf sqid = some cqid) :
      Effect τ s (.device i status) { s with
        sqes := s.sqes.eraseIdx i
        rings := Function.update s.rings cqid (s.rings cqid ++ [⟨sqid, cid, status⟩]) }
  | reapDropped {cqid : Nat} {cqe : Cqe} {rest : List Cqe} (head : s.rings cqid = cqe :: rest)
      (miss : s.getCmdOnReaper τ cqe = none) : Effect τ s (.reap cqid) (s.popRing cqid)
  | reaped {cqid : Nat} {cqe : Cqe} {rest : List Cqe} {r : Ref} {s₁ : State ι}
      (head : s.rings cqid = cqe :: rest) (hit : s.getCmdOnReaper τ cqe = some r)
      (cmpl : Completed τ s r cqe s₁) : Effect τ s (.reap cqid) (s₁.popRing cqid)
  | cqRun {t : ι} {sqid vcq nrCqes : Nat} {nowait : Bool} (idle : s.calls t = none) :
      Effect τ s (.cqRun t sqid vcq nrCqes nowait)
        (s.setCall t (some ⟨some sqid, s.vcqArg vcq, nrCqes, nowait, [], false⟩))
  | vcqRun {t : ι} {vcq nrCqes : Nat} {nowait : Bool} (idle : s.calls t = none) :
      Effect τ s (.vcqRun t vcq nrCqes nowait)
        (s.setCall t (some ⟨none, s.vcqArg vcq, nrCqes, nowait, [], false⟩))
  | waited {t : ι} {c : Call} {done : Bool} (call : s.calls t = some c)
      (nothing : s.polls τ t = none ∧ s.pops t = none) :
      Effect τ s (.iter t) (s.setCall t (some { c with done := done }))
  | popped {t : ι} {c : Call} {qid : Nat} {vcq : Vcq} {e : Entry} {rest : List Entry}
      (call : s.calls t = some c) (usq : c.usq = none) (found : s.vcqs qid = some vcq)
      (head : vcq.entries = e :: rest) :
      Effect τ s (.iter t) ((s.setVcq qid (some { vcq with entries := rest })).setCall t
        (some { c with got := c.got ++ [e] }))
  | recorded {t : ι} {c : Call} {sqid qid : Nat} {vcq : Vcq} {e : Entry} {rest : List Entry}
      {r : Ref} (call : s.calls t = some c) (usq : c.usq = some sqid)
      (arg : ∃ s₁, s.vcqPop c.vcq = some (e, s₁)) (found : s.vcqs qid = some vcq)
      (head : vcq.entries = e :: rest) (hit : s.getCmd sqid e.vcqe.cqe.cid = some r) :
      Effect τ s (.iter t) (((s.setVcq qid (some { vcq with entries := rest })).setCmd r
        ((s.cmds r).record e.vcqe.cqe)).setCall t (some { c with got := c.got ++ [e] }))
  | popDropped {t : ι} {c : Call} {sqid qid : Nat} {vcq : Vcq} {e : Entry} {rest : List Entry}
      {d : Bool} (call : s.calls t = some c) (usq : c.usq = some sqid)
      (arg : ∃ s₁, s.vcqPop c.vcq = some (e, s₁)) (found : s.vcqs qid = some vcq)
      (head : vcq.entries = e :: rest) (miss : s.getCmd sqid e.vcqe.cqe.cid = none) :
      Effect τ s (.iter t) ((s.setVcq qid (some { vcq with entries := rest })).setCall t
        (some { c with done := d }))
  | pollDropped {t : ι} {c : Call} {sqid cqid : Nat} {cqe : Cqe} {rest : List Cqe} {done : Bool}
      (call : s.calls t = some c) (usq : c.usq = some sqid) (empty : s.vcqPop c.vcq = none)
      (mapped : τ.cqOf sqid = some cqid) (polling : τ.irq cqid = false)
      (head : s.rings cqid = cqe :: rest) (miss : s.getCmd sqid cqe.cid = none) :
      Effect τ s (.iter t) ((s.popRing cqid).setCall t (some { c with done := done }))
  | polled {t : ι} {c : Call} {sqid cqid : Nat} {cqe : Cqe} {rest : List Cqe} {done : Bool}
      {r : Ref} {s₁ : State ι} (call : s.calls t = some c) (usq : c.usq = some sqid)
      (empty : s.vcqPop c.vcq = none) (mapped : τ.cqOf sqid = some cqid)
      (polling : τ.irq cqid = false) (head : s.rings cqid = cqe :: rest)
      (hit : s.getCmd sqid cqe.cid = some r) (cmpl : Completed τ s r cqe s₁) :
      Effect τ s (.iter t) ((s₁.popRing cqid).setCall t (some { c with done := done }))
  | ret {t : ι} {c : Call} (call : s.calls t = some c) :
      Effect τ s (.ret t) { s.setCall t none with
        nrCmds := s.nrCmds - c.got.length
        pending := s.pending.diff (c.got.map Entry.owner) }
  | timedOut {r : Ref} {cqe : Cqe} {s₁ : State ι} (submitted : (s.cmds r).state = .submitted)
      (cmpl : Completed τ (s.setCmd r { s.cmds r with timedout := true }) r cqe s₁) :
      Effect τ s (.timeout r) s₁
  | cancelled {r : Ref} {cqe : Cqe} {s₁ : State ι}
      (cmpl : Completed τ s r cqe s₁)
      (open_ : (s.cmds r).state = .submitted ∨ (s.cmds r).state = .allocated) :
      Effect τ s (.cancel r) s₁
  | cancelledAllocated {r : Ref} {cqe : Cqe} {s₁ : State ι} (cmpl : Completed τ s r cqe s₁)
      (allocated : (s.cmds r).state = .allocated) : Effect τ s (.cancelAllocated r) s₁
  | cancelSkipped {r : Ref} : Effect τ s (.cancel r) s
  | cancelAllocatedSkipped {r : Ref} : Effect τ s (.cancelAllocated r) s
  | vcqInitFull {qsize : Nat} : Effect τ s (.vcqInit qsize) s
  | vcqInit {qsize qid : Nat} {rest : List Nat} (next : s.freeIds = qid :: rest) :
      Effect τ s (.vcqInit qsize) { s.setVcq qid (some ⟨s.nextReg, qsize, []⟩) with
        freeIds := rest, nextReg := s.nextReg + 1 }
  | vcqFree {qid : Nat} {vcq : Vcq} (found : s.vcqs qid = some vcq) :
      Effect τ s (.vcqFree qid) { s.setVcq qid none with freeIds := qid :: s.freeIds }

omit [DecidableEq ι] in
theorem polls_eq {τ : Topo} {s : State ι} {t : ι} {c : Call} {sqid cqid : Nat} {cqe : Cqe}
    {rest : List Cqe} (call : s.calls t = some c) (usq : c.usq = some sqid)
    (empty : s.vcqPop c.vcq = none) (mapped : τ.cqOf sqid = some cqid)
    (polling : τ.irq cqid = false) (head : s.rings cqid = cqe :: rest) :
    s.polls τ t = some (sqid, cqe) := by
  simp [State.polls, call, usq, empty, mapped, polling, head]

omit [DecidableEq ι] in
theorem pops_eq {s : State ι} {t : ι} {c : Call} {sqid : Nat} {e : Entry}
    (call : s.calls t = some c) (usq : c.usq = some sqid)
    (arg : ∃ s₁, s.vcqPop c.vcq = some (e, s₁)) : s.pops t = some (sqid, e) := by
  obtain ⟨s₁, pop⟩ := arg
  simp [State.pops, call, usq, pop]

omit [DecidableEq ι] in
theorem pops_cases {s : State ι} {t : ι} {sqid : Nat} {e : Entry}
    (h : s.pops t = some (sqid, e)) :
    ∃ qid vcq rest, s.vcqs qid = some vcq ∧ vcq.entries = e :: rest := by
  unfold State.pops at h
  split at h
  · cases h
  · split at h
    · cases h
    · obtain ⟨⟨e', s₁⟩, pop, same⟩ := Option.map_eq_some_iff.mp h
      cases same
      obtain ⟨qid, vcq, rest, found, head, -⟩ := vcqPop_cases pop
      exact ⟨qid, vcq, rest, found, head⟩

omit [DecidableEq ι] in
/-- A call that has an entry to pop does not poll. -/
theorem polls_eq_none {τ : Topo} {s : State ι} {t : ι} {c : Call} {e : Entry}
    (call : s.calls t = some c) (arg : ∃ s₁, s.vcqPop c.vcq = some (e, s₁)) :
    s.polls τ t = none := by
  obtain ⟨s₁, pop⟩ := arg
  simp only [State.polls, call, pop]
  split
  · rfl
  · split
    · rfl
    · simp

theorem iter_cases {τ : Topo} {s s' : State ι} {t : ι} {c : Call} (call : s.calls t = some c)
    (h : s.iter τ t c = some s') : Effect τ s (.iter t) s' := by
  unfold State.iter at h
  split at h
  · cases h
  split at h
  · rename_i usq
    unfold State.vcqIter at h
    split at h
    · split at h <;> cases h
      exact .waited call ⟨by simp [State.polls, call, usq], by simp [State.pops, call, usq]⟩
    · rename_i e s₁ pop
      cases h
      obtain ⟨qid, vcq, rest, found, head, rfl⟩ := vcqPop_cases pop
      exact .popped call usq found head
  · rename_i sqid usq
    split at h
    · cases h
    · rename_i cqid mapped
      cases irq : τ.irq cqid with
      | true =>
          rw [irq, if_pos rfl] at h
          unfold State.irqIter at h
          split at h
          · rename_i empty
            split at h <;> cases h
            exact .waited call ⟨by simp [State.polls, call, usq, mapped, irq],
              by simp [State.pops, call, usq, empty]⟩
          · rename_i e s₁ pop
            obtain ⟨qid, vcq, rest, found, head, rfl⟩ := vcqPop_cases pop
            split at h <;> cases h
            · exact .popDropped (d := c.done) call usq ⟨_, pop⟩ found head ‹_›
            · exact .recorded call usq ⟨_, pop⟩ found head ‹_›
      | false =>
          rw [irq, if_neg Bool.false_ne_true] at h
          unfold State.pollIter at h
          split at h
          · rename_i e s₁ pop
            obtain ⟨qid, vcq, rest, found, head, rfl⟩ := vcqPop_cases pop
            split at h <;> cases h
            · exact .popDropped call usq ⟨_, pop⟩ found head ‹_›
            · exact .recorded call usq ⟨_, pop⟩ found head ‹_›
          · rename_i empty
            split at h
            · rename_i nothing
              cases h
              exact .waited call ⟨by simp [State.polls, call, usq, mapped, nothing],
                by simp [State.pops, call, usq, empty]⟩
            · rename_i cqe rest head
              split at h
              · cases h
                exact .pollDropped call usq empty mapped irq head ‹_›
              · rename_i r hit
                obtain ⟨s₁, cmpl, rfl⟩ := Option.map_eq_some_iff.mp h
                exact .polled call usq empty mapped irq head hit (cmdCmpl_cases cmpl)

/-- **Inversion.** Every step is one of the effects. -/
theorem step_cases {τ : Topo} {s s' : State ι} {a : Act ι} (h : step τ s a = some s') :
    Effect τ s a s' := by
  cases a with
  | alloc r cid vcq opcode wakeup =>
      simp only [step] at h
      split at h <;> cases h
      rename_i enabled
      exact .alloc enabled.1 enabled.2.1
  | post r =>
      simp only [step] at h
      split at h <;> cases h
      rename_i enabled
      exact .post enabled.1 enabled.2
  | free r =>
      simp only [step] at h
      split at h <;> cases h
      rename_i enabled
      exact .free enabled.1 enabled.2
  | device i status =>
      simp only [step] at h
      split at h
      · cases h
      · split at h <;> cases h
        exact .device ‹_› ‹_›
  | reap cqid =>
      simp only [step] at h
      split at h
      · cases h
      · rename_i cqe rest head
        split at h
        · cases h
          exact .reapDropped head ‹_›
        · obtain ⟨s₁, cmpl, rfl⟩ := Option.map_eq_some_iff.mp h
          exact .reaped head ‹_› (cmdCmpl_cases cmpl)
  | cqRun t sqid vcq nrCqes nowait =>
      simp only [step] at h
      split at h <;> cases h
      rename_i enabled
      exact .cqRun enabled.1
  | vcqRun t vcq nrCqes nowait =>
      simp only [step] at h
      split at h <;> cases h
      exact .vcqRun ‹_›
  | iter t =>
      simp only [step] at h
      split at h
      · cases h
      · exact iter_cases ‹_› h
  | ret t =>
      simp only [step] at h
      split at h
      · cases h
      · split at h <;> cases h
        exact .ret ‹_›
  | timeout r =>
      simp only [step] at h
      split at h
      · rename_i enabled
        exact .timedOut enabled.2 (cmdCmpl_cases h)
      · cases h
  | cancel r =>
      simp only [step] at h
      split at h
      · split at h
        · exact .cancelled (cmdCmpl_cases h) (Or.inl ‹_›)
        · exact .cancelled (cmdCmpl_cases h) (Or.inr ‹_›)
        · cases h
          exact .cancelSkipped
      · cases h
  | cancelAllocated r =>
      simp only [step] at h
      split at h
      · split at h
        · exact .cancelledAllocated (cmdCmpl_cases h) ‹_›
        · cases h
          exact .cancelAllocatedSkipped
      · cases h
  | vcqInit qsize =>
      simp only [step] at h
      split at h <;> cases h
      · exact .vcqInitFull
      · exact .vcqInit ‹_›
  | vcqFree qid =>
      simp only [step] at h
      split at h <;> cases h
      rename_i registered
      obtain ⟨vcq, found⟩ := Option.isSome_iff_exists.mp registered
      exact .vcqFree found

/-- Free ids and registered ids lie in the map. -/
structure State.IdsInRange (s : State ι) : Prop where
  free : ∀ qid ∈ s.freeIds, qid < vcqMax
  registered : ∀ qid vcq, s.vcqs qid = some vcq → qid < vcqMax

omit [DecidableEq ι] in
theorem State.IdsInRange.setVcq {s : State ι} (h : s.IdsInRange) {qid : Nat} (hq : qid < vcqMax)
    (x : Option Vcq) : (s.setVcq qid x).IdsInRange := by
  refine ⟨h.free, ?_⟩
  intro q vcq found
  by_cases same : q = qid
  · subst same
    exact hq
  · simp only [State.setVcq, Function.update_of_ne same] at found
    exact h.registered q vcq found

omit [DecidableEq ι] in
theorem State.IdsInRange.completed {τ : Topo} {s s₁ : State ι} {r : Ref} {cqe : Cqe}
    (h : s.IdsInRange) (cmpl : Completed τ s r cqe s₁) : s₁.IdsInRange := by
  cases cmpl with
  | woken wakeup => exact ⟨h.free, h.registered⟩
  | pushed silent registered =>
      have marked : ((s.incCount r).setCmd r ((s.cmds r).setState .toBeCompleted)).IdsInRange :=
        ⟨h.free, h.registered⟩
      exact marked.setVcq (h.registered _ _ (vcqGet_some registered)) _
  | dropped silent unregistered => exact ⟨h.free, h.registered⟩

theorem step_idsInRange {τ : Topo} {s s' : State ι} {a : Act ι} (h : s.IdsInRange)
    (hstep : step τ s a = some s') : s'.IdsInRange := by
  have effect := step_cases hstep
  cases effect with
  | reaped head hit cmpl | polled call usq empty mapped polling head hit cmpl =>
      have done := h.completed cmpl
      exact ⟨done.free, done.registered⟩
  | timedOut isSubmitted cmpl =>
      refine State.IdsInRange.completed ?_ cmpl
      exact ⟨h.free, h.registered⟩
  | cancelled cmpl open_ => exact h.completed cmpl
  | cancelledAllocated cmpl allocated => exact h.completed cmpl
  | popped call usq found head | recorded call usq arg found head hit
  | popDropped call usq arg found head miss =>
      exact ⟨h.free, (h.setVcq (h.registered _ _ found) _).registered⟩
  | @vcqInit qsize qid rest next =>
      have inMap : qid < vcqMax := h.free qid (by rw [next]; exact List.mem_cons_self)
      refine ⟨fun q mem => h.free q ?_, (h.setVcq inMap _).registered⟩
      rw [next]
      exact List.mem_cons_of_mem _ mem
  | @vcqFree qid vcq found =>
      have inMap := h.registered qid vcq found
      refine ⟨?_, (h.setVcq inMap none).registered⟩
      intro q mem
      rcases List.mem_cons.mp mem with rfl | mem
      · exact inMap
      · exact h.free q mem
  | _ => exact ⟨h.free, h.registered⟩

omit [DecidableEq ι] in
theorem start_idsInRange : (start ι).IdsInRange := by
  refine ⟨?_, fun qid vcq found => by simp [start] at found⟩
  intro qid mem
  have := List.mem_range'_1.mp mem
  simp only [vcqMax] at *
  omega

end Effects

end Unvmed.Path
