import Unvmed.Lib.Run
import Unvmed.Basic

/-!
Queues that were deleted and are still held (`lib/libunvmed.c`, `src/unvmed-cmds.c`,
`src/app/fio/libunvmed-engine.c`).

Deleting a queue discards its libvfn part, `q`, and drops the driver's reference. An instance that
others hold stays in its slot without `q`, and a later creation gives it a new one. Each call is one
action; what libvfn and the device answer is part of it. Where the rings of a queue stand decides no
access to `q`, so a ring here is its size and its memory. An SQ points to its CQ without a
reference; an instance that was freed has no `q` either.

* `reads_present_iff`: no call of a run reads through a `q` that is not there if and only if every
  call is `Safe`.
* `held_queues_fault`: calls on deleted queues that are not.
-/

namespace Unvmed.Discard

open Lib

/-- What `q` points to: `q->qsize` and `q->mem.iova`. -/
structure Ring where
  qsize : Nat
  iova : Nat
  deriving DecidableEq, Repr

/-- A pointer to a CQ instance: the serial number tells two instances of one slot apart. -/
structure CqRef where
  qid : Nat
  serial : Nat
  deriving DecidableEq, Repr

/-- `struct unvme_sq`; `ext` counts the references of external holders. -/
structure Sq where
  q : Option Ring
  refcnt : Nat
  ext : Nat := 0
  enabled : Bool := false
  /-- `UNVMED_SQ_F_FROZEN` -/
  frozen : Bool := false
  ucq : CqRef
  deriving DecidableEq, Repr

/-- `struct unvme_cq` -/
structure Cq where
  q : Option Ring
  refcnt : Nat
  ext : Nat := 0
  enabled : Bool := false
  /-- `unvmed_cq_irq_enabled` -/
  irq : Bool
  serial : Nat
  deriving DecidableEq, Repr

structure State where
  sqs : Nat → Option Sq
  cqs : Nat → Option Cq
  /-- How many CQ instances were made so far. -/
  next : Nat
  /-- `unvmed_ctrl_enabled` -/
  ctrlEnabled : Bool
  /-- A call read through a `q` that is not there. -/
  fault : Bool

/-- Whose `q` is not there. -/
inductive Absent where
  | sq
  | cq
  deriving DecidableEq, Repr

/-- What a call meets outside this code. -/
structure Outcome where
  /-- libvfn configures the queue, with this ring. -/
  ring : Option Ring := some ⟨8, 0⟩
  /-- A new instance is allocated. -/
  instance_ : Bool := true
  /-- An admin command is allocated and prepared. -/
  cmd : Bool := true
  /-- The admin command succeeds. -/
  cqeOk : Bool := true
  deriving Repr

/-! ### Slots -/

def State.setSq (s : State) (qid : Nat) (usq : Option Sq) : State :=
  { s with sqs := Function.update s.sqs qid usq }

def State.setCq (s : State) (qid : Nat) (ucq : Option Cq) : State :=
  { s with cqs := Function.update s.cqs qid ucq }

/-- `unvmed_sq_ready` -/
def Sq.ready (usq : Sq) : Bool := usq.enabled && !usq.frozen

/-- The CQ instance that an SQ points to, unless it was freed. -/
def State.cqAt (s : State) (ref : CqRef) : Option Cq :=
  (s.cqs ref.qid).filter fun ucq => ucq.serial = ref.serial

/-- `unvmed_sq_put`: the last reference frees the instance. -/
def Sq.put (usq : Sq) : Option Sq :=
  if usq.refcnt = 1 then none else some { usq with refcnt := usq.refcnt - 1 }

/-- `unvmed_cq_put` -/
def Cq.put (ucq : Cq) : Option Cq :=
  if ucq.refcnt = 1 then none else some { ucq with refcnt := ucq.refcnt - 1 }

/-- `unvmed_discard_sq` -/
def State.discardSq (s : State) (qid : Nat) : State :=
  s.setSq qid ((s.sqs qid).map fun usq => { usq with q := none })

/-- `unvmed_discard_cq` -/
def State.discardCq (s : State) (qid : Nat) : State :=
  s.setCq qid ((s.cqs qid).map fun ucq => { ucq with q := none })

/-- `__unvmed_delete_sq`: the queue is discarded and the reference put. -/
def State.deleteSq (s : State) (qid : Nat) : State :=
  let s := s.discardSq qid
  s.setSq qid ((s.sqs qid).bind Sq.put)

/-- `__unvmed_delete_cq` -/
def State.deleteCq (s : State) (qid : Nat) : State :=
  let s := s.discardCq qid
  s.setCq qid ((s.cqs qid).bind Cq.put)

/-- `unvmed_disable_sq` -/
def State.disableSq (s : State) (qid : Nat) : State :=
  s.setSq qid ((s.sqs qid).map fun usq => { usq with enabled := false })

/-- `unvmed_disable_sq_all`, `unvmed_disable_cq_all`. -/
def State.disableAll (s : State) : State :=
  { s with
    sqs := fun qid => (s.sqs qid).map fun usq => { usq with enabled := false }
    cqs := fun qid => (s.cqs qid).map fun ucq => { ucq with enabled := false } }

/-! ### Accesses to `q` -/

def Sq.ring (usq : Sq) : Except Absent Ring :=
  match usq.q with
  | none => .error .sq
  | some r => .ok r

def Cq.ring (ucq : Cq) : Except Absent Ring :=
  match ucq.q with
  | none => .error .cq
  | some r => .ok r

/-- The ring of the CQ an SQ points to. -/
def State.cqRing (s : State) (ref : CqRef) : Except Absent Ring :=
  match s.cqAt ref with
  | none => .error .cq
  | some ucq => ucq.ring

/-- `unvmed_sq_update_tail`, which reads `tail` and `ptail` first. -/
def Sq.updateTail (usq : Sq) : Except Absent Unit := do
  let _ ← usq.ring

/-- `unvmed_cancel_sq`: it reads `head` and `phase` first. -/
def State.cancelSq (s : State) (usq : Sq) : Except Absent Unit := do
  let _ ← s.cqRing usq.ucq

/-- `unvmed_cq_drain`. Without interrupts it runs `__unvmed_reap_cqe`, which looks at `q`. -/
def State.cqDrain (s : State) (ref : CqRef) : Except Absent Unit :=
  match s.cqAt ref with
  | none => .error .cq
  | some ucq => if ucq.irq then ucq.ring.map fun _ => () else .ok ()

/-- `unvmed_cancel_cmd` -/
def State.cancelCmd (s : State) (usq : Sq) : Except Absent Unit :=
  if usq.q = none then .ok ()
  else do
    s.cqDrain usq.ucq
    s.cancelSq usq

/-- An admin command: its allocation takes a request of `asq->q`. -/
def Sq.adminCmd (asq : Sq) (o : Outcome) : Except Absent Bool := do
  let _ ← asq.ring
  return o.cmd && o.cqeOk

/-- The loop of `__unvmed_cq_run_n` for `n` entries. `pops` says what `unvmed_vcq_pop` returns, one
after another: nothing, or an entry and whether its command is known. A list that runs out is a call
that still waits. -/
def cqRunN (ucq : Cq) (nowait : Bool) : List (Option Bool) → Nat → Except Absent Nat
  | _, 0 => .ok 0
  | [], _ + 1 => .ok 0
  | none :: pops, n + 1 => do
      -- Without interrupts the CQ itself is polled here.
      if !ucq.irq then
        let _ ← ucq.ring
      if nowait then return 0
      cqRunN ucq nowait pops (n + 1)
  | some true :: pops, n + 1 => return (← cqRunN ucq nowait pops n) + 1
  | some false :: pops, n + 1 =>
      if !ucq.irq && nowait then return 0 else cqRunN ucq nowait pops (n + 1)

/-- Without interrupts, an iteration of the loop finds the virtual CQ empty. -/
def runsDry (nowait : Bool) : List (Option Bool) → Nat → Bool
  | _, 0 => false
  | [], _ + 1 => false
  | none :: _, _ + 1 => true
  | some true :: pops, n + 1 => runsDry nowait pops n
  | some false :: pops, n + 1 => if nowait then false else runsDry nowait pops (n + 1)

/-! ### Calls -/

/-- `unvmed_init_usq`; `none` where it fails. -/
def State.initUsq (s : State) (qid : Nat) (ring : Ring) (ucq : CqRef) (o : Outcome) :
    Option State :=
  match s.sqs qid with
  | none =>
      if o.instance_ then
        some (s.setSq qid (some { q := some ring, refcnt := 1, ucq := ucq }))
      else none
  | some usq =>
      -- `usq is already enabled`
      if usq.enabled then none
      else some (s.setSq qid (some { usq with
        refcnt := usq.refcnt + 1
        q := some ring
        ucq := ucq
        frozen := false }))

/-- `unvmed_init_ucq`; `none` where it fails. -/
def State.initUcq (s : State) (qid : Nat) (ring : Ring) (irq : Bool) (o : Outcome) :
    Option State :=
  match s.cqs qid with
  | none =>
      if o.instance_ then
        some { s.setCq qid (some { q := some ring, refcnt := 1, irq := irq, serial := s.next }) with
          next := s.next + 1 }
      else none
  | some ucq =>
      if ucq.enabled then none
      else some (s.setCq qid (some { ucq with
        refcnt := ucq.refcnt + 1
        q := some ring
        irq := irq }))

/-- `unvmed_enable_sq` -/
def State.enableSq (s : State) (qid : Nat) : State :=
  s.setSq qid ((s.sqs qid).map fun usq => { usq with enabled := true })

/-- `unvmed_enable_cq` -/
def State.enableCq (s : State) (qid : Nat) : State :=
  s.setCq qid ((s.cqs qid).map fun ucq => { ucq with enabled := true })

/-- `__unvmed_init_sq`. Where `unvmed_init_usq` fails, the instance in the slot is discarded. -/
def State.initSq (s : State) (qid cqid : Nat) (o : Outcome) : State :=
  match s.cqs cqid, o.ring with
  | none, _ | _, none => s
  | some ucq, some ring =>
      (s.initUsq qid ring ⟨cqid, ucq.serial⟩ o).getD (s.discardSq qid)

/-- `__unvmed_init_cq` -/
def State.initCq (s : State) (qid : Nat) (irq : Bool) (o : Outcome) : State :=
  match o.ring with
  | none => s
  | some ring => (s.initUcq qid ring irq o).getD (s.discardCq qid)

/-- `unvmed_create_sq`. The `q` of its CQ is passed on to libvfn and not read. -/
def State.createSq (s : State) (qid cqid : Nat) (o : Outcome) : Except Absent State :=
  if !s.ctrlEnabled then .ok s
  else match s.sqs 0, s.cqs cqid, o.ring with
    | some asq, some ucq, some ring => do
        if ← asq.adminCmd o then
          match s.initUsq qid ring ⟨cqid, ucq.serial⟩ o with
          | none => return s
          | some s => return s.enableSq qid
        else return s
    | _, _, _ => .ok s

/-- `unvmed_create_cq`, with `ok` for `unvmed_init_irq` and `unvmed_reaper_add_cq`. -/
def State.createCq (s : State) (qid : Nat) (irq ok : Bool) (o : Outcome) : Except Absent State :=
  match s.sqs 0, o.ring with
  | some asq, some ring => do
      if ← asq.adminCmd o then
        match s.initUcq qid ring irq o with
        | none => return s
        | some s => return if ok then s.enableCq qid else s
      else return s
  | _, _ => .ok s

/-- `unvmed_free_sq` -/
def State.freeSq (s : State) (qid : Nat) : Except Absent State :=
  match s.sqs qid with
  | none => .ok s
  | some usq => do
      let s := s.disableSq qid
      s.cancelSq usq
      return s.deleteSq qid

/-- `unvmed_free_cq` -/
def State.freeCq (s : State) (qid : Nat) : State :=
  (s.setCq qid ((s.cqs qid).map fun ucq => { ucq with enabled := false })).deleteCq qid

/-- A reference to an SQ that is taken and never put. -/
def State.leakSq (s : State) (qid : Nat) : State :=
  s.setSq qid ((s.sqs qid).map fun usq => { usq with refcnt := usq.refcnt + 1 })

/-- `unvme_delete_iosq`. It reads the memory of its target before anything else. -/
def State.unvmeDeleteIosq (s : State) (qid : Nat) (o : Outcome) : Except Absent State :=
  match s.sqs 0, s.sqs qid with
  | some usq, some targetq => do
      let _iova := (← targetq.ring).iova
      -- This exit goes past the put of the target.
      if !usq.ready then return s.leakSq qid
      if ← usq.adminCmd o then s.freeSq qid else return s
  | _, _ => .ok s

/-- `unvmed_reset_ctx`: the queues are disabled, and the commands of every SQ cancelled. -/
def State.resetCtx (s : State) (ioqs : Nat) : Except Absent State := do
  let s := s.disableAll
  (List.range (ioqs + 1)).forM fun qid =>
    match s.sqs qid with
    | none => .ok ()
    | some usq => s.cancelCmd usq
  return { s with ctrlEnabled := false }

/-- `unvmed_free_ctx` -/
def State.freeCtx (s : State) (ioqs : Nat) : State :=
  let s := (List.range (ioqs + 1)).foldl State.deleteSq s
  (List.range (ioqs + 1)).foldl State.deleteCq s

/-- The rounds of `unvmed_delete_iosq_all`: an admin command for each SQ that is there. It succeeds
for those in `deleted`. -/
def State.deleteIosqAll (asq : Sq) (deleted : List Nat) : List Nat → State → Except Absent State
  | [], s => .ok s
  | qid :: qids, s => match s.sqs qid with
      | none => State.deleteIosqAll asq deleted qids s
      | some _ => do
          let _ ← asq.ring
          State.deleteIosqAll asq deleted qids (if qid ∈ deleted then s.deleteSq qid else s)

/-- `unvmed_delete_iocq_all` -/
def State.deleteIocqAll (asq : Sq) (deleted : List Nat) : List Nat → State → Except Absent State
  | [], s => .ok s
  | qid :: qids, s => match s.cqs qid with
      | none => State.deleteIocqAll asq deleted qids s
      | some _ => do
          let _ ← asq.ring
          State.deleteIocqAll asq deleted qids (if qid ∈ deleted then s.deleteCq qid else s)

/-- `unvmed_reset_ctrl_graceful`, with the admin queues. -/
def State.resetGraceful (s : State) (ioqs : Nat) (asq : Sq) (deletedSqs deletedCqs : List Nat) :
    Except Absent State := do
  let s := s.disableAll
  (List.range (ioqs + 1)).forM fun qid =>
    match s.sqs qid with
    | none => .ok ()
    | some usq => usq.updateTail
  let s ← State.deleteIosqAll asq deletedSqs (List.range' 1 ioqs) s
  let s ← State.deleteIocqAll asq deletedCqs (List.range' 1 ioqs) s
  return { (s.deleteSq 0).deleteCq 0 with ctrlEnabled := false }

/-- `fio_libunvmed_commit`; `busy` if the lock is taken. -/
def Sq.commit (usq : Sq) (busy : Bool) : Except Absent Unit :=
  if busy then .ok ()
  else if !usq.ready && usq.refcnt = 1 then .ok ()
  else usq.updateTail

/-- An access to `q` that asks `unvmed_sq_ready` first. -/
def Sq.ifReady (usq : Sq) : Except Absent Unit :=
  if usq.ready then usq.ring.map fun _ => () else .ok ()

/-- `fio_libunvmed_getevents`: calls of `__unvmed_cq_run_n` that do not wait. -/
def Cq.getevents (ucq : Cq) : List (Nat × List (Option Bool)) → Except Absent Unit
  | [] => .ok ()
  | (n, pops) :: runs => do
      let _ ← cqRunN ucq true pops n
      ucq.getevents runs

/-- `unvmed_cq_run` -/
def Cq.run (ucq : Cq) (pops : List (Option Bool)) : Except Absent Unit := do
  let q ← ucq.ring
  let _ ← cqRunN ucq true pops (q.qsize - 1)

inductive Act where
  | initSq (qid cqid : Nat) (o : Outcome)
  | initCq (qid : Nat) (irq : Bool) (o : Outcome)
  | createSq (qid cqid : Nat) (o : Outcome)
  | createCq (qid : Nat) (irq ok : Bool) (o : Outcome)
  | enableSq (qid : Nat)
  | enableCq (qid : Nat)
  /-- A command timeout freezes the SQ. -/
  | freeze (qid : Nat)
  /-- `unvmed_enable_ctrl`, as `unvmed_ctrl_enabled` sees it. -/
  | enableCtrl
  /-- `unvmed_sq_get`, `unvmed_sq_put` and their CQ twins, by an external holder. -/
  | getSq (qid : Nat)
  | putSq (qid : Nat)
  | getCq (qid : Nat)
  | putCq (qid : Nat)
  | freeSq (qid : Nat)
  /-- `unvmed_del_sq`, which leaves `enabled`. -/
  | delSq (qid : Nat)
  | freeCq (qid : Nat)
  | unvmeDeleteIosq (qid : Nat) (o : Outcome)
  | resetCtx
  | freeCtx
  | resetGraceful (deletedSqs deletedCqs : List Nat)
  /-- The calls of an external holder. -/
  | commit (qid : Nat) (busy : Bool)
  | updateTail (qid : Nat)
  | cancelCmd (qid : Nat)
  /-- `fio_libunvmed_queue`: a command is allocated on an SQ that is ready. -/
  | queue (qid : Nat)
  | cqRunN (qid : Nat) (nowait : Bool) (n : Nat) (pops : List (Option Bool))
  | cqRun (qid : Nat) (pops : List (Option Bool))
  | getevents (qid : Nat) (runs : List (Nat × List (Option Bool)))
  /-- `unvme_update_sqdb` -/
  | updateSqdb (qid : Nat)
  deriving Repr

/-- A call that only looks at an SQ. -/
def State.onSq (s : State) (qid : Nat) (f : Sq → Except Absent Unit) : Except Absent State :=
  match s.sqs qid with
  | none => .ok s
  | some usq => (f usq).map fun _ => s

/-- A call that only looks at a CQ. -/
def State.onCq (s : State) (qid : Nat) (f : Cq → Except Absent Unit) : Except Absent State :=
  match s.cqs qid with
  | none => .ok s
  | some ucq => (f ucq).map fun _ => s

/-- One call, for a controller made for `ioqs` I/O queues. -/
def State.exec (ioqs : Nat) (s : State) : Act → Except Absent State
  | .initSq qid cqid o => .ok (s.initSq qid cqid o)
  | .initCq qid irq o => .ok (s.initCq qid irq o)
  | .createSq qid cqid o => s.createSq qid cqid o
  | .createCq qid irq ok o => s.createCq qid irq ok o
  | .enableSq qid => .ok (s.enableSq qid)
  | .enableCq qid => .ok (s.enableCq qid)
  | .freeze qid => .ok (s.setSq qid ((s.sqs qid).map fun usq => { usq with frozen := true }))
  | .enableCtrl => .ok { s with ctrlEnabled := true }
  | .getSq qid => .ok (s.setSq qid ((s.sqs qid).map fun usq =>
      { usq with refcnt := usq.refcnt + 1, ext := usq.ext + 1 }))
  | .putSq qid => .ok (s.setSq qid ((s.sqs qid).bind fun usq =>
      { usq with ext := usq.ext - 1 }.put))
  | .getCq qid => .ok (s.setCq qid ((s.cqs qid).map fun ucq =>
      { ucq with refcnt := ucq.refcnt + 1, ext := ucq.ext + 1 }))
  | .putCq qid => .ok (s.setCq qid ((s.cqs qid).bind fun ucq =>
      { ucq with ext := ucq.ext - 1 }.put))
  | .freeSq qid => s.freeSq qid
  | .delSq qid => .ok (s.deleteSq qid)
  | .freeCq qid => .ok (s.freeCq qid)
  | .unvmeDeleteIosq qid o => s.unvmeDeleteIosq qid o
  | .resetCtx => s.resetCtx ioqs
  | .freeCtx => .ok (s.freeCtx ioqs)
  | .resetGraceful deletedSqs deletedCqs =>
      match s.sqs 0 with
      | none => .ok s
      | some asq => s.resetGraceful ioqs asq deletedSqs deletedCqs
  | .commit qid busy => s.onSq qid fun usq => usq.commit busy
  | .updateTail qid => s.onSq qid fun usq => usq.updateTail
  | .cancelCmd qid => s.onSq qid fun usq => s.cancelCmd usq
  | .queue qid => s.onSq qid fun usq => usq.ifReady
  | .cqRunN qid nowait n pops =>
      s.onCq qid fun ucq => (Discard.cqRunN ucq nowait pops n).map fun _ => ()
  | .cqRun qid pops => s.onCq qid fun ucq => ucq.run pops
  | .getevents qid runs => s.onCq qid fun ucq => ucq.getevents runs
  | .updateSqdb qid => s.onSq qid fun usq => usq.ifReady

/-- The holder of a reference makes the call; a graceful reset has the admin queues. -/
def State.admits (s : State) : Act → Bool
  | .putSq qid | .commit qid _ | .updateTail qid | .cancelCmd qid | .queue qid =>
      (s.sqs qid).any fun usq => 0 < usq.ext
  | .putCq qid | .cqRunN qid _ _ _ | .cqRun qid _ | .getevents qid _ =>
      (s.cqs qid).any fun ucq => 0 < ucq.ext
  | .resetGraceful _ _ => (s.sqs 0).isSome && (s.cqs 0).isSome
  | _ => true

/-- A call that reads through a `q` that is not there is the last one. -/
def step (ioqs : Nat) (s : State) (a : Act) : Option State :=
  if s.fault || !s.admits a then none
  else match s.exec ioqs a with
    | .error _ => some { s with fault := true }
    | .ok s' => some { s' with fault := false }

def start : State := ⟨fun _ => none, fun _ => none, 0, false, false⟩

/-! ### Which calls are safe -/

/-- The CQ that an SQ points to has its `q`. -/
def State.CqPresent (s : State) (ref : CqRef) : Prop := ∃ ucq, s.cqAt ref = some ucq ∧ ucq.q.isSome

/-- What a call needs to find. A commit on an SQ without `q` is stopped only for the last holder of
an SQ that is not ready; a reset without grace skips SQs without `q` and looks at the CQs of the
others; polling a CQ goes to `q` when the virtual CQ is empty. -/
def State.Finds (ioqs : Nat) (s : State) : Act → Prop
  | .createSq _ cqid o => s.ctrlEnabled = true → ∀ asq, s.sqs 0 = some asq →
      (s.cqs cqid).isSome → o.ring.isSome → asq.q.isSome
  | .createCq _ _ _ o => ∀ asq, s.sqs 0 = some asq → o.ring.isSome → asq.q.isSome
  | .freeSq qid => ∀ usq, s.sqs qid = some usq → s.CqPresent usq.ucq
  | .unvmeDeleteIosq qid o => ∀ usq, s.sqs 0 = some usq → ∀ targetq, s.sqs qid = some targetq →
      targetq.q.isSome ∧ (usq.ready = true → usq.q.isSome ∧
        (o.cmd = true → o.cqeOk = true → s.CqPresent targetq.ucq))
  | .resetCtx => ∀ qid ≤ ioqs, ∀ usq, s.sqs qid = some usq → usq.q.isSome → s.CqPresent usq.ucq
  | .resetGraceful _ _ => (s.sqs 0).isSome → ∀ qid ≤ ioqs, ∀ usq, s.sqs qid = some usq → usq.q.isSome
  | .commit qid busy => ∀ usq, s.sqs qid = some usq →
      busy = true ∨ usq.q.isSome ∨ (usq.ready = false ∧ usq.refcnt = 1)
  | .updateTail qid => ∀ usq, s.sqs qid = some usq → usq.q.isSome
  | .cancelCmd qid => ∀ usq, s.sqs qid = some usq → usq.q.isSome → s.CqPresent usq.ucq
  | .queue qid | .updateSqdb qid => ∀ usq, s.sqs qid = some usq → usq.ready = true → usq.q.isSome
  | .cqRunN qid nowait n pops => ∀ ucq, s.cqs qid = some ucq →
      ucq.irq = true ∨ ucq.q.isSome ∨ runsDry nowait pops n = false
  | .cqRun qid _ => ∀ ucq, s.cqs qid = some ucq → ucq.q.isSome
  | .getevents qid runs => ∀ ucq, s.cqs qid = some ucq →
      ucq.irq = true ∨ ucq.q.isSome ∨ ∀ run ∈ runs, runsDry true run.2 run.1 = false
  | _ => True

/-- The call finds what it needs. -/
def Safe (ioqs : Nat) (s : State) (a : Act) : Prop :=
  s.fault = false → s.admits a = true → s.Finds ioqs a

/-! ### Reading -/

/-- The computation reads no `q` that is not there. -/
def Reads {α : Type} (x : Except Absent α) : Prop := ∃ a, x = .ok a

section Reads

variable {α β : Type} {x : Except Absent α}

@[simp] theorem reads_ok (a : α) : Reads (.ok a : Except Absent α) := ⟨a, rfl⟩

@[simp] theorem reads_pure (a : α) : Reads (pure a : Except Absent α) := ⟨a, rfl⟩

@[simp] theorem not_reads_error (e : Absent) : ¬ Reads (.error e : Except Absent α) := by
  rintro ⟨a, h⟩
  cases h

theorem reads_bind {f : α → Except Absent β} :
    Reads (x >>= f) ↔ ∃ a, x = .ok a ∧ Reads (f a) := by
  cases x with
  | error e => exact ⟨fun h => absurd h (not_reads_error e), fun ⟨_, h, _⟩ => by cases h⟩
  | ok a => exact ⟨fun h => ⟨a, rfl, h⟩, fun ⟨_, h, here⟩ => by cases h; exact here⟩

/-- What is read first does not change what is read next. -/
theorem reads_then {f : α → Except Absent β} {P : Prop} (h : ∀ a, Reads (f a) ↔ P) :
    Reads (x >>= f) ↔ Reads x ∧ P := by
  rw [reads_bind]
  constructor
  · rintro ⟨a, here, next⟩
    exact ⟨⟨a, here⟩, (h a).mp next⟩
  · rintro ⟨⟨a, here⟩, next⟩
    exact ⟨a, here, (h a).mpr next⟩

@[simp] theorem reads_map {f : α → β} : Reads (x.map f) ↔ Reads x := by
  cases x with
  | error e => exact ⟨fun h => absurd h (not_reads_error e), fun h => absurd h (not_reads_error e)⟩
  | ok a => exact ⟨fun _ => reads_ok a, fun _ => reads_ok (f a)⟩

/-- A loop that only reads. -/
theorem reads_forM {γ : Type} {f : γ → Except Absent Unit} {l : List γ} :
    Reads (l.forM f) ↔ ∀ c ∈ l, Reads (f c) := by
  induction l with
  | nil => exact ⟨fun _ _ mem => absurd mem List.not_mem_nil, fun _ => reads_pure ()⟩
  | cons c l ih =>
      rw [List.forM, reads_then fun _ => ih]
      simp

@[simp] theorem Sq.ring_reads {usq : Sq} : Reads usq.ring ↔ usq.q.isSome := by
  unfold Sq.ring
  split <;> rename_i h <;> simp [h]

@[simp] theorem Cq.ring_reads {ucq : Cq} : Reads ucq.ring ↔ ucq.q.isSome := by
  unfold Cq.ring
  split <;> rename_i h <;> simp [h]

variable {s : State}

theorem cqRing_reads {ref : CqRef} : Reads (s.cqRing ref) ↔ s.CqPresent ref := by
  unfold State.cqRing State.CqPresent
  split <;> rename_i h <;> simp [h]

@[simp] theorem updateTail_reads {usq : Sq} : Reads usq.updateTail ↔ usq.q.isSome := by
  unfold Sq.updateTail
  rw [reads_then (P := True) fun _ => by simp]
  simp

@[simp] theorem cancelSq_reads {usq : Sq} : Reads (s.cancelSq usq) ↔ s.CqPresent usq.ucq := by
  unfold State.cancelSq
  rw [reads_then (P := True) fun _ => by simp, cqRing_reads]
  simp

/-- The drain reads what the cancelation reads again. -/
theorem cqDrain_reads {ref : CqRef} (present : s.CqPresent ref) : Reads (s.cqDrain ref) := by
  obtain ⟨ucq, at_, q⟩ := present
  unfold State.cqDrain
  rw [at_]
  dsimp only
  split
  · simpa using q
  · exact reads_ok ()

theorem cancelCmd_reads {usq : Sq} :
    Reads (s.cancelCmd usq) ↔ (usq.q.isSome → s.CqPresent usq.ucq) := by
  unfold State.cancelCmd
  split
  · rename_i gone
    simp [gone]
  · rename_i here
    have q : usq.q.isSome := Option.isSome_iff_ne_none.mpr here
    rw [reads_then fun _ => cancelSq_reads]
    exact ⟨fun h _ => h.2, fun h => ⟨cqDrain_reads (h q), h q⟩⟩

/-- A loop over the virtual CQ reads `q` where it polls an empty one. -/
theorem cqRunN_reads {ucq : Cq} {nowait : Bool} (polling : ucq.irq = false) :
    ∀ {pops : List (Option Bool)} {n : Nat},
      Reads (cqRunN ucq nowait pops n) ↔ ucq.q.isSome ∨ runsDry nowait pops n = false
  | _, 0 => by simp [cqRunN, runsDry]
  | [], _ + 1 => by simp [cqRunN, runsDry]
  | none :: pops, n + 1 => by
      have rest : Reads (cqRunN ucq nowait pops (n + 1)) ↔ _ := cqRunN_reads polling
      simp only [cqRunN, runsDry, polling, Bool.not_false, if_true, Bool.true_eq_false, or_false]
      rw [reads_bind]
      constructor
      · rintro ⟨r, here, -⟩
        exact Cq.ring_reads.mp ⟨r, here⟩
      · intro q
        obtain ⟨r, here⟩ := Cq.ring_reads.mpr q
        refine ⟨r, here, ?_⟩
        split
        · exact reads_pure 0
        · exact rest.mpr (.inl q)
  | some true :: pops, n + 1 => by
      have rest : Reads (cqRunN ucq nowait pops n) ↔ _ := cqRunN_reads polling
      simp only [cqRunN, runsDry]
      rw [reads_then (P := True) fun _ => by simp]
      simpa using rest
  | some false :: pops, n + 1 => by
      have rest : Reads (cqRunN ucq nowait pops (n + 1)) ↔ _ := cqRunN_reads polling
      simp only [cqRunN, runsDry, polling, Bool.not_false, Bool.true_and]
      split
      · simp
      · exact rest

/-- With interrupts, the loop never looks at `q`. -/
theorem cqRunN_irq {ucq : Cq} {nowait : Bool} (irq : ucq.irq = true) :
    ∀ {pops : List (Option Bool)} {n : Nat}, Reads (cqRunN ucq nowait pops n)
  | _, 0 => by simp [cqRunN]
  | [], _ + 1 => by simp [cqRunN]
  | none :: pops, n + 1 => by
      have rest : Reads (cqRunN ucq nowait pops (n + 1)) := cqRunN_irq irq
      simp only [cqRunN, irq, Bool.not_true, Bool.false_eq_true, if_false]
      split
      · exact reads_pure 0
      · exact rest
  | some true :: pops, n + 1 => by
      simp only [cqRunN]
      rw [reads_then (P := True) fun _ => by simp]
      exact ⟨cqRunN_irq irq, trivial⟩
  | some false :: pops, n + 1 => by
      have rest : Reads (cqRunN ucq nowait pops (n + 1)) := cqRunN_irq irq
      simp only [cqRunN, irq, Bool.not_true, Bool.false_and, Bool.false_eq_true, if_false]
      exact rest

theorem cqRunN_reads_iff {ucq : Cq} {nowait : Bool} {pops : List (Option Bool)} {n : Nat} :
    Reads (cqRunN ucq nowait pops n) ↔
      ucq.irq = true ∨ ucq.q.isSome ∨ runsDry nowait pops n = false := by
  cases irq : ucq.irq with
  | false => simpa using cqRunN_reads irq
  | true => simpa using cqRunN_irq irq

theorem getevents_reads {ucq : Cq} {runs : List (Nat × List (Option Bool))} :
    Reads (ucq.getevents runs) ↔
      ucq.irq = true ∨ ucq.q.isSome ∨ ∀ run ∈ runs, runsDry true run.2 run.1 = false := by
  induction runs with
  | nil => simp [Cq.getevents]
  | cons run runs ih =>
      obtain ⟨n, pops⟩ := run
      simp only [Cq.getevents]
      rw [reads_then fun _ => ih, cqRunN_reads_iff]
      simp only [List.forall_mem_cons]
      tauto

theorem run_reads {ucq : Cq} {pops : List (Option Bool)} :
    Reads (ucq.run pops) ↔ ucq.q.isSome := by
  unfold Cq.run
  rw [reads_bind]
  constructor
  · rintro ⟨r, here, -⟩
    exact Cq.ring_reads.mp ⟨r, here⟩
  · intro q
    obtain ⟨r, here⟩ := Cq.ring_reads.mpr q
    refine ⟨r, here, ?_⟩
    rw [reads_then (P := True) fun _ => by simp, cqRunN_reads_iff]
    exact ⟨.inr (.inl q), trivial⟩

theorem commit_reads {usq : Sq} {busy : Bool} : Reads (usq.commit busy) ↔
    busy = true ∨ usq.q.isSome ∨ (usq.ready = false ∧ usq.refcnt = 1) := by
  unfold Sq.commit
  split
  · rename_i taken
    simp [taken]
  · rename_i free
    split
    · rename_i last
      simp only [Bool.and_eq_true, Bool.not_eq_true', decide_eq_true_eq] at last
      simp [last]
    · rename_i more
      simp only [Bool.and_eq_true, Bool.not_eq_true', decide_eq_true_eq] at more
      simp [free, more]

theorem ifReady_reads {usq : Sq} : Reads usq.ifReady ↔ (usq.ready = true → usq.q.isSome) := by
  unfold Sq.ifReady
  split
  · rename_i ready
    simp [ready]
  · rename_i idle
    simp [idle]

/-- An admin command, and what follows by its result. -/
theorem adminCmd_reads {asq : Sq} {o : Outcome} {f : Bool → Except Absent β} :
    Reads (asq.adminCmd o >>= f) ↔ asq.q.isSome ∧ Reads (f (o.cmd && o.cqeOk)) := by
  cases hq : asq.q with
  | none => simp [Sq.adminCmd, Sq.ring, hq, bind, Except.bind]
  | some r => simp [Sq.adminCmd, Sq.ring, hq, bind, Except.bind, pure, Except.pure]

end Reads

/-! ### Calls that read -/

section Calls

variable {s : State}

theorem createSq_reads {qid cqid : Nat} {o : Outcome} :
    Reads (s.createSq qid cqid o) ↔ s.Finds 0 (.createSq qid cqid o) := by
  unfold State.createSq State.Finds
  split
  · rename_i disabled
    simp only [Bool.not_eq_true'] at disabled
    simp [disabled]
  · rename_i enabled
    simp only [Bool.not_eq_true', Bool.not_eq_false] at enabled
    split
    · rename_i asq ucq ring hasq hucq hring
      rw [adminCmd_reads]
      simp only [enabled, hasq, hucq, hring]
      constructor
      · rintro ⟨q, -⟩ _ _ ⟨⟩ _ _
        exact q
      · intro safe
        refine ⟨safe trivial asq rfl rfl rfl, ?_⟩
        split
        · split <;> simp
        · simp
    · rename_i other
      refine iff_of_true (reads_ok s) ?_
      intro _ asq hasq hucq hring
      obtain ⟨ucq, hucq⟩ := Option.isSome_iff_exists.mp hucq
      obtain ⟨ring, hring⟩ := Option.isSome_iff_exists.mp hring
      exact absurd hring (other asq ucq ring hasq hucq)

theorem createCq_reads {qid : Nat} {irq ok : Bool} {o : Outcome} :
    Reads (s.createCq qid irq ok o) ↔ s.Finds 0 (.createCq qid irq ok o) := by
  unfold State.createCq State.Finds
  split
  · rename_i asq ring hasq hring
    rw [adminCmd_reads]
    simp only [hasq, hring]
    constructor
    · rintro ⟨q, -⟩ _ ⟨⟩ _
      exact q
    · intro safe
      refine ⟨safe asq rfl rfl, ?_⟩
      split
      · split <;> simp
      · simp
  · rename_i other
    refine iff_of_true (reads_ok s) ?_
    intro asq hasq hring
    obtain ⟨ring, hring⟩ := Option.isSome_iff_exists.mp hring
    exact absurd hring (other asq ring hasq)

theorem freeSq_reads {qid : Nat} :
    Reads (s.freeSq qid) ↔ ∀ usq, s.sqs qid = some usq → s.CqPresent usq.ucq := by
  unfold State.freeSq
  split
  · rename_i empty
    simp [empty]
  · rename_i usq here
    have same : (s.disableSq qid).CqPresent usq.ucq ↔ s.CqPresent usq.ucq := Iff.rfl
    rw [reads_then (P := True) fun _ => by simp, cancelSq_reads, same]
    simp [here]

theorem unvmeDeleteIosq_reads {qid : Nat} {o : Outcome} :
    Reads (s.unvmeDeleteIosq qid o) ↔ s.Finds 0 (.unvmeDeleteIosq qid o) := by
  unfold State.unvmeDeleteIosq State.Finds
  split
  · rename_i usq targetq husq htarget
    have next : Reads (if !usq.ready then (return s.leakSq qid : Except Absent State)
        else usq.adminCmd o >>= fun ok => if ok then s.freeSq qid else return s) ↔
        (usq.ready = true → usq.q.isSome ∧
          (o.cmd = true → o.cqeOk = true → s.CqPresent targetq.ucq)) := by
      split
      · rename_i idle
        simp only [Bool.not_eq_true'] at idle
        simp [idle]
      · rename_i ready
        simp only [Bool.not_eq_true', Bool.not_eq_false] at ready
        rw [adminCmd_reads]
        simp only [ready, true_implies]
        refine and_congr_right fun _ => ?_
        split
        · rename_i ok
          rw [freeSq_reads]
          simp only [Bool.and_eq_true] at ok
          simp [htarget, ok]
        · rename_i fails
          simp only [Bool.and_eq_true] at fails
          exact iff_of_true (reads_pure s) fun cmd cqeOk => absurd ⟨cmd, cqeOk⟩ fails
    rw [reads_then fun _ => next, Sq.ring_reads]
    simp [husq, htarget]
  · rename_i other
    refine iff_of_true (reads_ok s) ?_
    intro usq husq targetq htarget
    exact absurd htarget (other usq targetq husq)

/-- Disabling the queues leaves every `q`. -/
theorem disableAll_present {ref : CqRef} : s.disableAll.CqPresent ref ↔ s.CqPresent ref := by
  simp only [State.CqPresent, State.cqAt, State.disableAll]
  cases s.cqs ref.qid with
  | none => simp
  | some ucq => by_cases h : ucq.serial = ref.serial <;> simp [Option.filter, h]

/-- A loop over the SQs in the slots. -/
theorem forM_sqs_reads {ioqs : Nat} {f : Sq → Except Absent Unit} {P : Sq → Prop}
    (h : ∀ usq : Sq, Reads (f { usq with enabled := false }) ↔ P usq) :
    Reads ((List.range (ioqs + 1)).forM fun qid =>
      match s.disableAll.sqs qid with
      | none => .ok ()
      | some usq => f usq) ↔ ∀ qid ≤ ioqs, ∀ usq, s.sqs qid = some usq → P usq := by
  rw [reads_forM]
  refine forall_congr' fun qid => ?_
  rw [List.mem_range, Nat.lt_succ_iff]
  refine imp_congr_right fun _ => ?_
  simp only [State.disableAll]
  cases s.sqs qid with
  | none => simp
  | some usq => simp [h]

theorem resetCtx_reads {ioqs : Nat} : Reads (s.resetCtx ioqs) ↔ s.Finds ioqs .resetCtx := by
  unfold State.resetCtx State.Finds
  rw [reads_then (P := True) fun _ => by simp, and_true]
  refine forM_sqs_reads fun usq => ?_
  rw [cancelCmd_reads, disableAll_present]

theorem deleteIosqAll_reads {asq : Sq} {deleted qids : List Nat} {s : State}
    (q : asq.q.isSome) : Reads (State.deleteIosqAll asq deleted qids s) := by
  induction qids generalizing s with
  | nil => exact reads_ok s
  | cons qid qids ih =>
      unfold State.deleteIosqAll
      split
      · exact ih
      · rw [reads_bind]
        obtain ⟨r, here⟩ := Sq.ring_reads.mpr q
        exact ⟨r, here, ih⟩

theorem deleteIocqAll_reads {asq : Sq} {deleted qids : List Nat} {s : State}
    (q : asq.q.isSome) : Reads (State.deleteIocqAll asq deleted qids s) := by
  induction qids generalizing s with
  | nil => exact reads_ok s
  | cons qid qids ih =>
      unfold State.deleteIocqAll
      split
      · exact ih
      · rw [reads_bind]
        obtain ⟨r, here⟩ := Sq.ring_reads.mpr q
        exact ⟨r, here, ih⟩

theorem resetGraceful_reads {ioqs : Nat} {asq : Sq} {deletedSqs deletedCqs : List Nat}
    (hasq : s.sqs 0 = some asq) :
    Reads (s.resetGraceful ioqs asq deletedSqs deletedCqs) ↔
      ∀ qid ≤ ioqs, ∀ usq, s.sqs qid = some usq → usq.q.isSome := by
  unfold State.resetGraceful
  rw [reads_bind]
  have tails := @forM_sqs_reads s ioqs Sq.updateTail (fun usq => usq.q.isSome)
    fun usq => updateTail_reads
  constructor
  · rintro ⟨_, loop, -⟩
    exact tails.mp ⟨_, loop⟩
  · intro all
    obtain ⟨_, loop⟩ := tails.mpr all
    have q : asq.q.isSome := all 0 (Nat.zero_le _) asq hasq
    refine ⟨_, loop, ?_⟩
    obtain ⟨s₁, first⟩ : Reads (State.deleteIosqAll asq deletedSqs (List.range' 1 ioqs)
      s.disableAll) := deleteIosqAll_reads q
    obtain ⟨s₂, second⟩ : Reads (State.deleteIocqAll asq deletedCqs (List.range' 1 ioqs) s₁) :=
      deleteIocqAll_reads q
    exact reads_bind.mpr ⟨s₁, first, reads_bind.mpr ⟨s₂, second, reads_pure _⟩⟩

theorem onSq_reads {qid : Nat} {f : Sq → Except Absent Unit} :
    Reads (s.onSq qid f) ↔ ∀ usq, s.sqs qid = some usq → Reads (f usq) := by
  unfold State.onSq
  split <;> rename_i h <;> simp [h]

theorem onCq_reads {qid : Nat} {f : Cq → Except Absent Unit} :
    Reads (s.onCq qid f) ↔ ∀ ucq, s.cqs qid = some ucq → Reads (f ucq) := by
  unfold State.onCq
  split <;> rename_i h <;> simp [h]

/-- **Step lemma.** A call reads no `q` that is not there exactly where it is safe. -/
theorem exec_reads {ioqs : Nat} {a : Act} : Reads (s.exec ioqs a) ↔ s.Finds ioqs a := by
  cases a with
  | createSq qid cqid o => exact createSq_reads
  | createCq qid irq ok o => exact createCq_reads
  | freeSq qid => exact freeSq_reads
  | unvmeDeleteIosq qid o => exact unvmeDeleteIosq_reads
  | resetCtx => exact resetCtx_reads
  | resetGraceful deletedSqs deletedCqs =>
      simp only [State.exec]
      split
      · rename_i none
        exact iff_of_true (reads_ok s) fun here => by simp [none] at here
      · rename_i asq here
        rw [resetGraceful_reads here]
        simp [State.Finds, here]
  | commit qid busy =>
      simp only [State.exec, onSq_reads, commit_reads]
      rfl
  | updateTail qid =>
      simp only [State.exec, onSq_reads, updateTail_reads]
      rfl
  | cancelCmd qid =>
      simp only [State.exec, onSq_reads, cancelCmd_reads]
      rfl
  | queue qid =>
      simp only [State.exec, onSq_reads, ifReady_reads]
      rfl
  | updateSqdb qid =>
      simp only [State.exec, onSq_reads, ifReady_reads]
      rfl
  | cqRunN qid nowait n pops =>
      simp only [State.exec, onCq_reads, reads_map, cqRunN_reads_iff]
      rfl
  | cqRun qid pops =>
      simp only [State.exec, onCq_reads, run_reads]
      rfl
  | getevents qid runs =>
      simp only [State.exec, onCq_reads, getevents_reads]
      rfl
  | initSq qid cqid o => exact iff_of_true (reads_ok _) trivial
  | initCq qid irq o => exact iff_of_true (reads_ok _) trivial
  | enableSq qid => exact iff_of_true (reads_ok _) trivial
  | enableCq qid => exact iff_of_true (reads_ok _) trivial
  | freeze qid => exact iff_of_true (reads_ok _) trivial
  | enableCtrl => exact iff_of_true (reads_ok _) trivial
  | getSq qid => exact iff_of_true (reads_ok _) trivial
  | putSq qid => exact iff_of_true (reads_ok _) trivial
  | getCq qid => exact iff_of_true (reads_ok _) trivial
  | putCq qid => exact iff_of_true (reads_ok _) trivial
  | delSq qid => exact iff_of_true (reads_ok _) trivial
  | freeCq qid => exact iff_of_true (reads_ok _) trivial
  | freeCtx => exact iff_of_true (reads_ok _) trivial

end Calls

/-! ### Runs -/

section Runs

variable {ioqs : Nat}

theorem step_cases (s : State) (a : Act) (s' : State) (hstep : step ioqs s a = some s') :
    s.fault = false ∧ s.admits a = true ∧ (s'.fault = false ↔ s.Finds ioqs a) := by
  unfold step at hstep
  split at hstep
  · cases hstep
  · rename_i goes
    simp only [Bool.or_eq_true, Bool.not_eq_true', not_or, Bool.not_eq_true,
      Bool.not_eq_false] at goes
    refine ⟨goes.1, goes.2, ?_⟩
    rw [← exec_reads]
    split at hstep
    · rename_i absent
      cases hstep
      rw [absent]
      simp
    · rename_i s₁ done
      cases hstep
      exact iff_of_true rfl ⟨s₁, done⟩

/-- **Discarded queues.** In every run of calls, for any number of I/O queues, no call reads through
a `q` that is not there if and only if every call is safe. -/
theorem reads_present_iff (ioqs : Nat) (as : List Act) :
    Guarded (step ioqs) (Safe ioqs) start as ↔
      ∀ bs t, bs <+: as → run (step ioqs) start bs = some t → t.fault = false := by
  refine guarded_iff (I := fun s : State => s.fault = false) (fun _ => id) ?_ ?_ ?_ rfl
  · intro s a s' fault safe hstep
    obtain ⟨-, admitted, present⟩ := step_cases s a s' hstep
    exact present.mpr (safe fault admitted)
  · intro s a s' _ hstep good
    obtain ⟨-, -, present⟩ := step_cases s a s' hstep
    exact fun _ _ => present.mp good
  · intro s a blocked fault admitted
    unfold step at blocked
    rw [fault, admitted] at blocked
    simp only [Bool.not_true, Bool.or_self, Bool.false_eq_true, if_false] at blocked
    split at blocked <;> cases blocked

end Runs

/-- The admin queues, CQ 1 without interrupts and SQ 1 on it, both held twice, and the deletion of
SQ 1. -/
def heldAndDeleted : List Act :=
  [.initCq 0 false {}, .initSq 0 0 {}, .enableCq 0, .enableSq 0, .enableCtrl,
    .createCq 1 false true {}, .createSq 1 1 {}, .getSq 1, .getSq 1, .getCq 1,
    .unvmeDeleteIosq 1 {}]

/-- A commit of one of two holders, a graceful reset, the deletion of the SQ that was deleted, and
reaping a deleted CQ read through a `q` that is not there. -/
theorem held_queues_fault :
    (∃ s, run (step 1) start heldAndDeleted = some s ∧ s.fault = false) ∧
    (∃ s, run (step 1) start (heldAndDeleted ++ [.commit 1 false]) = some s ∧ s.fault = true) ∧
    (∃ s, run (step 1) start (heldAndDeleted ++ [.resetGraceful [1] [1]]) = some s ∧
      s.fault = true) ∧
    (∃ s, run (step 1) start (heldAndDeleted ++ [.unvmeDeleteIosq 1 {}]) = some s ∧
      s.fault = true) ∧
    (∃ s, run (step 1) start (heldAndDeleted ++ [.freeCq 1, .getevents 1 [(1, [none])]]) = some s ∧
      s.fault = true) :=
  ⟨⟨_, rfl, rfl⟩, ⟨_, rfl, rfl⟩, ⟨_, rfl, rfl⟩, ⟨_, rfl, rfl⟩, ⟨_, rfl, rfl⟩⟩

end Unvmed.Discard
