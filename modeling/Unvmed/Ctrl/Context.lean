import Unvmed.Lib.Field
import Unvmed.Ctrl.State

/-!
Saving a controller's context and restoring it after a reset (`lib/libunvmed.c`).

`unvmed_ctx_init` writes down what is set up: the controller's registers, its namespaces and
the queues in the slots. `unvmed_ctx_restore` calls the functions that create these things, in
that order. The device here accepts every command, and no allocation fails; a call that fails
all the same ends the restore. The instances of a slot are told apart no further than by what
creation sets, so a slot holds the instance itself; the references an instance has beside the
driver's are in its count.
-/

namespace Unvmed.Context

open Lib
open Ctrl (CtrlState)

/-- A queue instance in its slot; `α` is what its creation sets. -/
structure Slot (α : Type) where
  refcnt : Nat
  enabled : Bool
  /-- The instance has its libvfn queue: `q != NULL`. -/
  q : Bool
  args : α
  deriving DecidableEq, Repr

/-- Created and not deleted. -/
def Slot.live {α : Type} (s : Slot α) : Bool := s.q && s.enabled

structure CqArgs where
  qsize : Nat
  vector : Int
  pc : Nat
  deriving DecidableEq, Repr

/-- `cqid` is the id of the CQ that `usq->ucq` points to. -/
structure SqArgs where
  qsize : Nat
  cqid : Nat
  qprio : Nat
  pc : Nat
  nvmsetid : Nat
  deriving DecidableEq, Repr

/-- `u->cqs` or `u->sqs`. -/
abbrev Table (α : Type) := Nat → Option (Slot α)

/-- The controller, and the registers of its device. -/
structure State where
  state : CtrlState
  /-- `NVME_REG_CC` -/
  cc : Nat
  /-- `NVME_REG_AQA` -/
  aqa : Nat
  timeout : Int
  nrIrqs : Nat
  /-- `u->ns_list` -/
  nsids : List Nat
  cqs : Table CqArgs
  sqs : Table SqArgs

/-! ### Registers -/

/-- `NVME_CC_CSS` -/
def ccCss (cc : Nat) : Nat := field cc 4 3

/-- `NVME_CC_MPS` -/
def ccMps (cc : Nat) : Nat := field cc 7 4

/-- `NVME_CC_AMS` -/
def ccAms (cc : Nat) : Nat := field cc 11 3

/-- `NVME_CC_IOSQES` -/
def ccIosqes (cc : Nat) : Nat := field cc 16 4

/-- `NVME_CC_IOCQES` -/
def ccIocqes (cc : Nat) : Nat := field cc 20 4

/-- `NVME_CC_EN` -/
def ccEn (cc : Nat) : Nat := field cc 0 1

/-- `NVME_AQA_ASQS` -/
def aqaAsqs (aqa : Nat) : Nat := field aqa 0 12

/-- `NVME_AQA_ACQS` -/
def aqaAcqs (aqa : Nat) : Nat := field aqa 16 12

/-- What `unvmed_configure_adminq` writes to `NVME_REG_AQA`. -/
def aqaOf (sqSize cqSize : Nat) : Nat := ((sqSize - 1) ||| ((cqSize - 1) <<< 16)) % 2 ^ 32

/-- What `__unvmed_enable_ctrl` writes to `NVME_REG_CC`. -/
def ccOf (iosqes iocqes mps ams : Nat) : Nat :=
  mps <<< 7 ||| ams <<< 11 ||| iosqes <<< 16 ||| iocqes <<< 20 ||| 1 <<< 0

/-! ### Slots -/

section Slots

variable {α : Type}

/-- `unvmed_init_usq`, `unvmed_init_ucq`. The reference taken on an instance that is already
there stays. -/
def Table.init (t : Table α) (qid : Nat) (args : α) : Option (Table α) :=
  match t qid with
  | none =>
      some (Function.update t qid
        (some { refcnt := 1, enabled := false, q := true, args := args }))
  | some s =>
      if s.enabled then none
      else some (Function.update t qid
        (some { s with refcnt := s.refcnt + 1, q := true, args := args }))

/-- The instance in a slot changes. -/
def Table.modify (t : Table α) (qid : Nat) (f : Slot α → Slot α) : Table α :=
  Function.update t qid ((t qid).map f)

/-- `unvmed_enable_sq`, `unvmed_enable_cq`. -/
def Table.enable (t : Table α) (qid : Nat) : Table α :=
  t.modify qid fun s => { s with enabled := true }

/-- `unvmed_disable_sq_all`, `unvmed_disable_cq_all`. -/
def Table.disableAll (t : Table α) : Table α :=
  fun qid => (t qid).map fun s => { s with enabled := false }

/-- One round of `__unvmed_delete_sq_all` or `__unvmed_delete_cq_all`. -/
def Table.deleteOne (t : Table α) (qid : Nat) : Table α :=
  Function.update t qid ((t qid).bind fun s =>
    if s.refcnt - 1 = 0 then none else some { s with refcnt := s.refcnt - 1, q := false })

/-- `__unvmed_delete_sq_all`, `__unvmed_delete_cq_all`. -/
def Table.deleteAll (t : Table α) (nr : Nat) : Table α := (List.range nr).foldl Table.deleteOne t

end Slots

/-- `nvme_configure_sq` and `nvme_configure_cq` of libvfn: a queue has two entries or more,
and its id is within libvfn's arrays. -/
def accepts (nr qid qsize : Nat) : Bool := decide (qid < nr) && decide (2 ≤ qsize)

/-! ### Creation -/

/-- `vector >= 0 && unvmed_init_irq(u, vector)` lets the call go on. -/
def State.irqReady (u : State) (vector : Int) : Bool :=
  decide (vector < 0) || decide (vector < u.nrIrqs)

/-- `unvmed_cq_iv(ucq) = -1` for a CQ without interrupts. -/
def CqArgs.masked (a : CqArgs) : CqArgs := if a.vector < 0 then { a with vector := -1 } else a

/-- `unvmed_init_cq`. -/
def State.initCq (nrCqs : Nat) (u : State) (qid : Nat) (a : CqArgs) : Option State :=
  if u.irqReady a.vector && accepts nrCqs qid a.qsize then
    (u.cqs.init qid a.masked).map fun cqs => { u with cqs := cqs }
  else none

/-- `unvmed_init_sq`. -/
def State.initSq (nrSqs : Nat) (u : State) (qid : Nat) (a : SqArgs) : Option State :=
  if (u.cqs a.cqid).isSome && accepts nrSqs qid a.qsize then
    (u.sqs.init qid a).map fun sqs => { u with sqs := sqs }
  else none

/-- `unvmed_configure_adminq`, and the vector the admin CQ is left with. -/
def State.configureAdminq (u : State) (sqSize cqSize : Nat) (irq : Bool) : State :=
  { u with
    aqa := aqaOf sqSize cqSize
    cqs := if !irq || u.nrIrqs = 0 then
        u.cqs.modify 0 fun s => { s with args := { s.args with vector := -1 } }
      else u.cqs }

/-- `unvmed_create_adminq`. -/
def State.createAdminq (nrCqs nrSqs : Nat) (u : State) (sqSize cqSize : Nat) (irq : Bool) :
    Option State :=
  if u.state ≠ .disabled then none
  else (u.initCq nrCqs 0 { qsize := cqSize, vector := 0, pc := 1 }).bind fun u =>
    (u.initSq nrSqs 0 { qsize := sqSize, cqid := 0, qprio := 0, pc := 1, nvmsetid := 0 }).map
      fun u => u.configureAdminq sqSize cqSize irq

/-- `unvmed_enable_ctrl`. The device gets ready. -/
def State.enableCtrl (u : State) (iosqes iocqes mps ams _css : Nat) (timeout : Int) :
    Option State :=
  match u.state.set .enabling with
  | .error _ => none
  | .ok st =>
      if ccEn u.cc = 1 then none
      -- `css` is an argument and not written.
      else some { u with
        state := st.trySet .enabled
        cc := ccOf iosqes iocqes mps ams
        timeout := timeout
        cqs := u.cqs.enable 0
        sqs := u.sqs.enable 0 }

/-- `unvmed_init_ns`. A namespace that is already there stays the same object. -/
def State.initNs (u : State) (nsid : Nat) : State :=
  if nsid ∈ u.nsids then u else { u with nsids := u.nsids ++ [nsid] }

/-- `unvmed_init_meta_ns`: it fails only without the namespace. -/
def State.initMetaNs (u : State) (nsid : Nat) : Option State :=
  if nsid ∈ u.nsids then some u else none

/-- `unvmed_create_cq`. -/
def State.createCq (nrCqs : Nat) (u : State) (qid : Nat) (a : CqArgs) : Option State :=
  if u.irqReady a.vector && (u.sqs 0).isSome && accepts nrCqs qid a.qsize then
    (u.cqs.init qid a.masked).map fun cqs => { u with cqs := cqs.enable qid }
  else none

/-- `unvmed_create_sq`. -/
def State.createSq (nrSqs : Nat) (u : State) (qid : Nat) (a : SqArgs) : Option State :=
  if u.state = .enabled ∧ (u.sqs 0).isSome ∧ (u.cqs a.cqid).isSome ∧ accepts nrSqs qid a.qsize then
    (u.sqs.init qid a).map fun sqs => { u with sqs := sqs.enable qid }
  else none

/-! ### Reset -/

/-- `unvmed_reset_ctrl`. -/
def State.resetCtrl (u : State) : State :=
  match u.state.set .resetting with
  | .error _ => u
  | .ok st => { u with
      state := st.trySet .disabled
      cc := u.cc &&& 0xfffffffe
      cqs := u.cqs.disableAll
      sqs := u.sqs.disableAll }

/-- `unvmed_free_ctx`. -/
def State.freeCtx (nrCqs nrSqs : Nat) (u : State) : State :=
  { u with sqs := u.sqs.deleteAll nrSqs, cqs := u.cqs.deleteAll nrCqs }

/-! ### Context -/

/-- `struct unvme_ctx`. -/
inductive Ctx where
  | ctrl (iosqes iocqes mps ams sqSize cqSize : Nat) (timeout : Int) (css : Nat) (adminIrq : Bool)
  | ns (nsid : Nat)
  | cq (qid : Nat) (a : CqArgs)
  | sq (qid : Nat) (a : SqArgs)
  deriving Repr

/-- `u->asq && unvmed_cq_iv(u->acq) == 0`. -/
def State.adminIrq (u : State) : Bool :=
  match u.sqs 0, u.cqs 0 with
  | some _, some acq => acq.args.vector = 0
  | _, _ => false

/-- The entry for the controller. -/
def State.ctrlCtx (u : State) : Ctx :=
  .ctrl (ccIosqes u.cc) (ccIocqes u.cc) (ccMps u.cc) (ccAms u.cc) (aqaAsqs u.aqa + 1)
    (aqaAcqs u.aqa + 1) u.timeout (ccCss u.cc) u.adminIrq

/-- The entries for the queues in the slots of I/O queues. -/
def Table.saved {α : Type} (t : Table α) (entry : Nat → α → Ctx) (nr : Nat) : List Ctx :=
  (List.range' 1 (nr - 1)).filterMap fun qid => (t qid).map fun s => entry qid s.args

/-- `unvmed_ctx_init`: the list it leaves in `u->ctx_list`. -/
def State.ctxInit (nrCqs nrSqs : Nat) (u : State) : List Ctx :=
  u.ctrlCtx :: (u.nsids.map Ctx.ns ++ (u.cqs.saved Ctx.cq nrCqs ++ u.sqs.saved Ctx.sq nrSqs))

/-- `__unvmed_ctx_restore`. -/
def State.restoreOne (nrCqs nrSqs : Nat) (u : State) : Ctx → Option State
  | .ctrl iosqes iocqes mps ams sqSize cqSize timeout css adminIrq =>
      (u.createAdminq nrCqs nrSqs sqSize cqSize adminIrq).bind fun u =>
        u.enableCtrl iosqes iocqes mps ams css timeout
  | .ns nsid => (u.initNs nsid).initMetaNs nsid
  | .cq qid a => u.createCq nrCqs qid a
  | .sq qid a => u.createSq nrSqs qid a

/-- `unvmed_ctx_restore`. -/
def State.ctxRestore (nrCqs nrSqs : Nat) : State → List Ctx → Option State
  | u, [] => some u
  | u, ctx :: ctxs => (u.restoreOne nrCqs nrSqs ctx).bind fun u => u.ctxRestore nrCqs nrSqs ctxs

/-- `unvmed_ctx_init`, `unvmed_reset_ctrl`, `unvmed_free_ctx` and `unvmed_ctx_restore`. -/
def State.roundTrip (nrCqs nrSqs : Nat) (u : State) : Option State :=
  (u.resetCtrl.freeCtx nrCqs nrSqs).ctxRestore nrCqs nrSqs (u.ctxInit nrCqs nrSqs)

end Unvmed.Context
