import Mathlib

/-!
Commands and completions (`lib/libunvmed.h`).

A queue has one slot per command id, `usq->cmds[cid]`, and one shared slot for a
command whose pinned id collided with an outstanding one, `usq->conflict_cmds`.
The fields kept here are the ones the allocation, submission and completion
paths read or write; data buffers and the submission entry other than its opcode
are left out.
-/

namespace Unvmed

/-- `enum unvme_cmd_state`. -/
inductive CmdState where
  | init
  | allocated
  | submitted
  | completed
  | toBeCompleted
  deriving DecidableEq, Repr

/-- `enum unvmed_cmd_inject`. -/
inductive Inject where
  | none
  | conflict
  deriving DecidableEq, Repr

/-- `struct nvme_cqe`, as far as the host reads it: `status` is `sfp >> 1`. -/
structure Cqe where
  sqid : Nat
  cid : Nat
  status : Nat
  deriving DecidableEq, Repr

/-- A pointer to a command of one queue. -/
inductive Slot where
  /-- `&usq->cmds[cid]` -/
  | cmd (cid : Nat)
  /-- `usq->conflict_cmds` -/
  | conflict
  deriving DecidableEq, Repr

/-- The id a command carries: its slot's, or the pinned one of a conflict command. -/
def Slot.cidOr (cid : Nat) : Slot → Nat
  | .cmd c => c
  | .conflict => cid

/-- `struct unvme_cmd`. The defaults are the zeroed command that `calloc` and
`memset` leave. -/
structure Cmd where
  refcnt : Nat := 0
  state : CmdState := .init
  /-- `UNVMED_CMD_F_WAKEUP_ON_CQE` in `flags`. -/
  wakeup : Bool := false
  /-- `UNVMED_CMD_F_TIMEDOUT` in `flags`. -/
  timedout : Bool := false
  vcq : Nat := 0
  cid : Nat := 0
  rq : Option Nat := none
  completed : Bool := false
  /-- `sqe.opcode` -/
  opcode : Nat := 0
  cqe : Cqe := ⟨0, 0, 0⟩
  injected : Inject := .none
  deriving DecidableEq, Repr

/-- `struct unvme_vcqe`; `bdf` names the device. -/
structure Vcqe where
  cqe : Cqe
  bdf : Nat
  injected : Inject
  deriving DecidableEq, Repr

/-- `UNVME_VCQ_MAX`. -/
def vcqMax : Nat := 4096

/-- `unvmed_vcq_get`: id 0 and ids past the map name no VCQ. -/
def vcqGet {α : Type} (vcqMap : Nat → Option α) (qid : Nat) : Option α :=
  if qid = 0 ∨ qid ≥ vcqMax then none else vcqMap qid

theorem vcqGet_some {α : Type} {vcqs : Nat → Option α} {qid : Nat} {v : α}
    (h : vcqGet vcqs qid = some v) : vcqs qid = some v := by
  unfold vcqGet at h
  split at h
  · cases h
  · exact h

/-- The status of `unvmed_put_cqe`: path related, aborted by host. -/
def statusAborted : Nat := 3 * 2 ^ 8 + 0x71

/-- The status of `unvmed_cmd_timeout`: `NVME_SCT_UNVME`, `NVME_SC_UNVME_TIMED_OUT`. -/
def statusTimedOut : Nat := 6 * 2 ^ 8 + 1

/-- Two callers of the library, for the runs worked out in the other modules. -/
inductive Thread where
  | a
  | b
  deriving DecidableEq, Repr

instance : Fintype Thread := ⟨{.a, .b}, fun t => by cases t <;> decide⟩

/-- A queue's command slots. -/
abbrev Cmds := Slot → Cmd

/-- `cmd->state = st`. -/
def Cmd.setState (cmd : Cmd) (st : CmdState) : Cmd := { cmd with state := st }

/-- `__unvmed_cmd_cmpl`: record the completion on the command. -/
def Cmd.record (cmd : Cmd) (cqe : Cqe) : Cmd := { cmd with cqe := cqe, state := .completed }

/-- The wakeup branch of `unvmed_cmd_cmpl_wakeup`. -/
def Cmd.wake (cmd : Cmd) (cqe : Cqe) : Cmd := { cmd.record cqe with completed := true }

section Fields

variable (cmd : Cmd) (st : CmdState) (cqe : Cqe)

@[simp] theorem Cmd.setState_state : (cmd.setState st).state = st := rfl
@[simp] theorem Cmd.setState_cid : (cmd.setState st).cid = cmd.cid := rfl
@[simp] theorem Cmd.setState_vcq : (cmd.setState st).vcq = cmd.vcq := rfl
@[simp] theorem Cmd.setState_refcnt : (cmd.setState st).refcnt = cmd.refcnt := rfl
@[simp] theorem Cmd.setState_injected : (cmd.setState st).injected = cmd.injected := rfl
@[simp] theorem Cmd.record_state : (cmd.record cqe).state = .completed := rfl
@[simp] theorem Cmd.record_cid : (cmd.record cqe).cid = cmd.cid := rfl
@[simp] theorem Cmd.record_vcq : (cmd.record cqe).vcq = cmd.vcq := rfl
@[simp] theorem Cmd.wake_state : (cmd.wake cqe).state = .completed := rfl
@[simp] theorem Cmd.wake_cid : (cmd.wake cqe).cid = cmd.cid := rfl
@[simp] theorem Cmd.wake_vcq : (cmd.wake cqe).vcq = cmd.vcq := rfl

end Fields

def Cmds.setState (cmds : Cmds) (slot : Slot) (st : CmdState) : Cmds :=
  Function.update cmds slot ((cmds slot).setState st)

end Unvmed
