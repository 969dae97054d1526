import Unvmed.Lib.Run
import Unvmed.Basic
import Unvmed.Cmd.Cid
import Unvmed.Queue.Registry

/-!
Creation, deletion and reset of queues (`lib/libunvmed.c`), one call after another.

Each public call is one action here; how single accesses interleave is the subject
of `Unvmed.Queue.Registry`, whose keys and instances are used again. SQ and CQ
twins share a definition with the slot as a parameter. What libvfn, the allocator
and the controller answer during a call is part of the action (`Outcome`).

Two ghost lists say who owns the references that `refcnt` counts: `ext` is what
external callers got and did not put, `drv` what the driver side holds, which is
one reference for every successful creation. The interrupt and reaper bookkeeping
of CQs, and the commands of a queue, are not part of this machine.
-/

namespace Unvmed.Queue

open Lib
open Registry (Kind Key Inst)

/-- The fields of `struct unvme_sq` that creation writes. -/
structure Sq where
  qsize : Nat := 0
  qprio : Nat := 0
  pc : Nat := 0
  nvmsetid : Nat := 0
  flags : Nat := 0
  nrCmds : Int := 0
  ucq : Option Inst := none
  cmds : List Cmd := []
  cids : Cid.Bitmap := ⟨0, 0, [], 0⟩

/-- The fields of `struct unvme_cq` that creation writes. -/
structure Cq where
  qsize : Nat := 0
  vector : Int := 0
  pc : Nat := 0
  usq : Option Inst := none

/-- The registry of `struct unvme` and the heap of queue instances. -/
structure State where
  slot : Key → Option Inst
  /-- How many instances were allocated for the slot so far. -/
  next : Key → Nat
  refcnt : Inst → Int
  enabled : Inst → Bool
  /-- The instance has its libvfn queue: `q != NULL`. -/
  q : Inst → Bool
  sq : Inst → Sq
  cq : Inst → Cq
  freed : List Inst
  ext : List Inst
  drv : List Inst

/-- What a call meets outside this code. -/
structure Outcome where
  /-- `unvmed_ctrl_enabled`. -/
  ctrlEnabled : Bool := true
  /-- `unvmed_init_irq` succeeds. -/
  irq : Bool := true
  /-- libvfn has room for the queue. -/
  configured : Bool := true
  /-- An admin command is allocated. -/
  cmd : Bool := true
  /-- The admin command succeeds. -/
  cqeOk : Bool := true
  /-- The checked allocations of a new instance succeed, the timer's among them. -/
  allocated : Bool := true
  /-- `calloc` of `usq->cmds`, whose result is not checked. -/
  cmdsAllocated : Bool := true
  /-- `unvmed_reaper_add_cq` succeeds. -/
  reaper : Bool := true
  deriving Repr

/-- `nvme_configure_sq` and `nvme_configure_cq` of libvfn: a queue has two entries or
more, and its id is within libvfn's arrays. -/
def Outcome.accepts (o : Outcome) (nr qid qsize : Nat) : Bool :=
  o.configured && decide (qid < nr) && decide (2 ≤ qsize)

/-! ### References -/

def State.setRefcnt (u : State) (x : Inst) (n : Int) : State :=
  { u with refcnt := Function.update u.refcnt x n }

/-- `unvmed_enable_sq`, `unvmed_disable_sq` and their CQ twins. -/
def State.setEnabled (u : State) (x : Inst) (enabled : Bool) : State :=
  { u with enabled := Function.update u.enabled x enabled }

def State.setSq (u : State) (x : Inst) (usq : Sq) : State :=
  { u with sq := Function.update u.sq x usq }

def State.setCq (u : State) (x : Inst) (ucq : Cq) : State :=
  { u with cq := Function.update u.cq x ucq }

def State.setQ (u : State) (x : Inst) (q : Bool) : State :=
  { u with q := Function.update u.q x q }

/-- The call leaves its reference with the driver side. -/
def State.own (u : State) (x : Inst) : State := { u with drv := x :: u.drv }

/-- The call drops a reference in the name of the driver side. -/
def State.disown (u : State) (x : Inst) : State := { u with drv := u.drv.erase x }

/-- `__unvmed_find_and_get_sq` with `get = false`. -/
def State.find (nr : Kind → Nat) (u : State) (key : Key) : Option Inst :=
  if nr key.kind ≤ key.qid then none
  else match u.slot key with
    | none => none
    | some x => if u.refcnt x = 0 then none else some x

/-- `__unvmed_find_and_get_sq` with `get = true`: only a positive count is raised. -/
def State.get (nr : Kind → Nat) (u : State) (key : Key) : Option (Inst × State) :=
  match u.find nr key with
  | none => none
  | some x =>
      if 0 < u.refcnt x then some (x, u.setRefcnt x (u.refcnt x + 1)) else some (x, u)

/-- `__unvmed_free_usq`, `__unvmed_free_ucq`. -/
def State.free (u : State) (x : Inst) : State :=
  { u with slot := Function.update u.slot x.key none, freed := x :: u.freed }

/-- `unvmed_sq_put`, `unvmed_cq_put`. -/
def State.put (u : State) (x : Inst) : State :=
  if u.refcnt x - 1 = 0 then (u.setRefcnt x (u.refcnt x - 1)).free x
  else u.setRefcnt x (u.refcnt x - 1)

/-! ### Creation -/

/-- What `unvmed_init_usq` and `unvmed_init_ucq` get to work on: nothing, the
instance that is already there, or a new one. -/
inductive Claim where
  | failed (u : State)
  | reused (x : Inst) (u : State)
  | created (x : Inst) (u : State)

def State.fresh (u : State) (key : Key) : Inst := ⟨key, u.next key⟩

/-- A new instance is allocated and published with one reference. -/
def State.publish (u : State) (key : Key) : State :=
  { u.setRefcnt (u.fresh key) 1 with
    slot := Function.update u.slot key (some (u.fresh key))
    next := Function.update u.next key (u.next key + 1)
    enabled := Function.update u.enabled (u.fresh key) false }

def State.claim (nr : Kind → Nat) (u : State) (key : Key) (allocated : Bool) : Claim :=
  match u.get nr key with
  | none => if allocated then .created (u.fresh key) (u.publish key) else .failed u
  | some (x, u) =>
      -- `usq is already enabled`.
      if u.enabled x then .failed (u.put x) else .reused x u

/-- The arguments of `unvmed_create_sq` and `unvmed_init_sq`. -/
structure SqArgs where
  qid : Nat
  qsize : Nat
  cqid : Nat
  qprio : Nat := 0
  pc : Nat := 1
  nvmsetid : Nat := 0
  deriving Repr

/-- The arguments of `unvmed_create_cq` and `unvmed_init_cq`. -/
structure CqArgs where
  qid : Nat
  qsize : Nat
  vector : Int := -1
  pc : Nat := 1
  deriving Repr

/-- A new SQ: only here `cmds` and `cids` are sized. -/
def newSq (qsize : Nat) (o : Outcome) : Sq where
  cmds := if o.cmdsAllocated then List.replicate qsize {} else []
  cids := Cid.cidInit (qsize - 1)

/-- `@qsize, @ucq are changable whenever @usq initialization.` -/
def Sq.fill (usq : Sq) (ucq : Inst) (a : SqArgs) : Sq :=
  { usq with
    nrCmds := 0
    qsize := a.qsize
    qprio := a.qprio
    pc := a.pc
    nvmsetid := a.nvmsetid
    ucq := some ucq
    flags := 0 }

/-- The end of `unvmed_init_usq`; its reference stays with the driver side. -/
def State.fillSq (u : State) (x ucq : Inst) (a : SqArgs) : State :=
  (((u.setQ x true).setSq x ((u.sq x).fill ucq a)).setCq ucq
    { u.cq ucq with usq := some x }).own x

/-- `unvmed_init_usq`. -/
def State.initUsq (nr : Kind → Nat) (u : State) (a : SqArgs) (ucq : Inst) (o : Outcome) :
    Option Inst × State :=
  match u.claim nr ⟨.sq, a.qid⟩ o.allocated with
  | .failed u => (none, u)
  | .reused x u => (some x, u.fillSq x ucq a)
  | .created x u => (some x, (u.setSq x (newSq a.qsize o)).fillSq x ucq a)

/-- `@qsize and @vector are changable whenever @ucq initialization.` -/
def State.fillCq (u : State) (x : Inst) (a : CqArgs) : State :=
  ((u.setQ x true).setCq x
    { u.cq x with qsize := a.qsize, vector := a.vector, pc := a.pc }).own x

/-- `unvmed_init_ucq`. A new CQ is zeroed. -/
def State.initUcq (nr : Kind → Nat) (u : State) (a : CqArgs) (o : Outcome) :
    Option Inst × State :=
  match u.claim nr ⟨.cq, a.qid⟩ o.allocated with
  | .failed u => (none, u)
  | .reused x u => (some x, u.fillCq x a)
  | .created x u => (some x, (u.setCq x {}).fillCq x a)

/-- `unvmed_discard_sq`, `unvmed_discard_cq`. -/
def State.discard (u : State) (key : Key) : State :=
  match u.slot key with
  | none => u
  | some x => u.setQ x false

/-- `__unvmed_init_sq`. -/
def State.initSq (nr : Kind → Nat) (u : State) (a : SqArgs) (o : Outcome) : State :=
  match u.find nr ⟨.cq, a.cqid⟩ with
  | none => u
  | some ucq =>
      if o.accepts (nr .sq) a.qid a.qsize then
        match u.initUsq nr a ucq o with
        | (none, u) => u.discard ⟨.sq, a.qid⟩
        | (some _, u) => u
      else u

/-- `unvmed_create_sq`. libvfn's own queue is discarded where the source calls
`nvme_discard_sq`; the instance keeps its `q`. -/
def State.createSq (nr : Kind → Nat) (u : State) (a : SqArgs) (o : Outcome) : State :=
  if !o.ctrlEnabled then u
  else match u.get nr ⟨.sq, 0⟩ with
    | none => u
    | some (asq, u) => match u.get nr ⟨.cq, a.cqid⟩ with
        | none => u.put asq
        | some (ucq, u) =>
            if o.accepts (nr .sq) a.qid a.qsize && o.cmd && o.cqeOk then
              match u.initUsq nr a ucq o with
              | (none, u) => (u.put ucq).put asq
              | (some x, u) => ((u.setEnabled x true).put ucq).put asq
            else (u.put ucq).put asq

/-- `unvmed_cq_iv(ucq) = -1` for a CQ without interrupts. -/
def State.maskIv (u : State) (x : Inst) (vector : Int) : State :=
  if vector < 0 then u.setCq x { u.cq x with vector := -1 } else u

/-- `__unvmed_init_cq`. A CQ that the reaper does not take stays initialised. -/
def State.initCq (nr : Kind → Nat) (u : State) (a : CqArgs) (o : Outcome) : State :=
  if 0 ≤ a.vector ∧ !o.irq then u
  else if o.accepts (nr .cq) a.qid a.qsize then
    match u.initUcq nr a o with
    | (none, u) => u.discard ⟨.cq, a.qid⟩
    | (some x, u) => u.maskIv x a.vector
  else u

/-- `unvmed_create_cq`. -/
def State.createCq (nr : Kind → Nat) (u : State) (a : CqArgs) (o : Outcome) : State :=
  if 0 ≤ a.vector ∧ !o.irq then u
  else match u.get nr ⟨.sq, 0⟩ with
    | none => u
    | some (asq, u) =>
        if o.accepts (nr .cq) a.qid a.qsize && o.cmd && o.cqeOk then
          match u.initUcq nr a o with
          | (none, u) => u.put asq
          | (some x, u) =>
              if 0 ≤ a.vector ∧ !o.reaper then u.put asq
              else ((u.maskIv x a.vector).setEnabled x true).put asq
        else u.put asq

/-! ### Deletion -/

/-- `__unvmed_delete_sq`, `__unvmed_delete_cq`: the driver side drops a reference. -/
def State.delete (u : State) (x : Inst) : State :=
  ((u.discard x.key).disown x).put x

/-- The instance in a slot is looked up and deleted. -/
def State.deleteFound (nr : Kind → Nat) (u : State) (key : Key) : State :=
  match u.find nr key with
  | none => u
  | some x => u.delete x

/-- `unvmed_del_sq`. -/
def State.delSq (nr : Kind → Nat) (u : State) (qid : Nat) : State := u.deleteFound nr ⟨.sq, qid⟩

/-- `unvmed_delete_sq`. -/
def State.deleteSq (nr : Kind → Nat) (u : State) (qid : Nat) (o : Outcome) : State :=
  match u.get nr ⟨.sq, 0⟩ with
  | none => u
  | some (asq, u) =>
      if o.cmd && o.cqeOk then (u.deleteFound nr ⟨.sq, qid⟩).put asq else u.put asq

/-- `unvmed_delete_cq`. Without a command it returns before `unvmed_sq_put(u, asq)`,
and the reference stays. -/
def State.deleteCq (nr : Kind → Nat) (u : State) (qid : Nat) (o : Outcome) : State :=
  match u.get nr ⟨.sq, 0⟩ with
  | none => u
  | some (asq, u) =>
      if !o.cmd then u.own asq
      else if o.cqeOk then (u.deleteFound nr ⟨.cq, qid⟩).put asq
      else u.put asq

/-- A queue is disabled and deleted without a command. -/
def State.freeFound (nr : Kind → Nat) (u : State) (key : Key) : State :=
  match u.find nr key with
  | none => u
  | some x => (u.setEnabled x false).delete x

/-- `unvmed_free_sq`. -/
def State.freeSq (nr : Kind → Nat) (u : State) (qid : Nat) : State := u.freeFound nr ⟨.sq, qid⟩

/-- `unvmed_free_cq`. -/
def State.freeCq (nr : Kind → Nat) (u : State) (qid : Nat) : State := u.freeFound nr ⟨.cq, qid⟩

/-- One round of `__unvmed_delete_sq_all` or `__unvmed_delete_cq_all`. -/
def State.deleteOne (nr : Kind → Nat) (u : State) (key : Key) : State :=
  match u.get nr key with
  | none => u
  | some (x, u) => (u.put x).delete x

/-- The ids of a kind's slots, in the order of the loops. -/
def keys (nr : Kind → Nat) (kind : Kind) : List Key := (List.range (nr kind)).map fun q => ⟨kind, q⟩

/-- `unvmed_free_ctx`: `__unvmed_delete_sq_all`, then `__unvmed_delete_cq_all`. -/
def State.freeCtx (nr : Kind → Nat) (u : State) : State :=
  (keys nr .sq ++ keys nr .cq).foldl (State.deleteOne nr) u

/-- One round of `unvmed_disable_sq_all` or `unvmed_disable_cq_all`. -/
def State.disableOne (nr : Kind → Nat) (u : State) (key : Key) : State :=
  match u.get nr key with
  | none => u
  | some (x, u) => (u.setEnabled x false).put x

/-- The queues of `unvmed_disable_ctx`. -/
def State.disableCtx (nr : Kind → Nat) (u : State) : State :=
  (keys nr .sq ++ keys nr .cq).foldl (State.disableOne nr) u

/-! ### Runs -/

/-- A call of the driver side, or of an external holder (`get`, `put`). -/
inductive Act where
  | createSq (a : SqArgs) (o : Outcome)
  | createCq (a : CqArgs) (o : Outcome)
  | initSq (a : SqArgs) (o : Outcome)
  | initCq (a : CqArgs) (o : Outcome)
  | enable (key : Key) (enabled : Bool)
  | deleteSq (qid : Nat) (o : Outcome)
  | deleteCq (qid : Nat) (o : Outcome)
  | freeSq (qid : Nat)
  | freeCq (qid : Nat)
  | delSq (qid : Nat)
  | freeCtx
  | disableCtx
  | get (key : Key)
  | put (x : Inst)
  deriving Repr

/-- An external caller puts only what it got. -/
def step (nr : Kind → Nat) (u : State) : Act → Option State
  | .createSq a o => some (u.createSq nr a o)
  | .createCq a o => some (u.createCq nr a o)
  | .initSq a o => some (u.initSq nr a o)
  | .initCq a o => some (u.initCq nr a o)
  | .enable key enabled => match u.find nr key with
      | none => some u
      | some x => some (u.setEnabled x enabled)
  | .deleteSq qid o => some (u.deleteSq nr qid o)
  | .deleteCq qid o => some (u.deleteCq nr qid o)
  | .freeSq qid => some (u.freeSq nr qid)
  | .freeCq qid => some (u.freeCq nr qid)
  | .delSq qid => some (u.delSq nr qid)
  | .freeCtx => some (u.freeCtx nr)
  | .disableCtx => some (u.disableCtx nr)
  | .get key => match u.get nr key with
      | none => some u
      | some (x, u) => some { u with ext := x :: u.ext }
  | .put x => if x ∈ u.ext then some ({ u with ext := u.ext.erase x }.put x) else none

/-- A controller without queues. -/
def start : State where
  slot _ := none
  next _ := 0
  refcnt _ := 0
  enabled _ := false
  q _ := false
  sq _ := {}
  cq _ := {}
  freed := []
  ext := []
  drv := []

/-! ### Fields that a call leaves alone -/

theorem State.find_slot {nr : Kind → Nat} {u : State} {key : Key} {x : Inst}
    (found : u.find nr key = some x) : u.slot key = some x := by
  unfold State.find at found
  split at found
  · cases found
  · split at found
    · cases found
    · rename_i at_
      split at found <;> cases found
      exact at_

theorem State.get_fields {nr : Kind → Nat} {u u' : State} {key : Key} {x : Inst}
    (got : u.get nr key = some (x, u')) :
    u.find nr key = some x ∧ u'.slot = u.slot ∧ u'.drv = u.drv := by
  unfold State.get at got
  split at got
  · cases got
  · rename_i found
    split at got <;> cases got <;> exact ⟨found, rfl, rfl⟩

theorem State.get_none {nr : Kind → Nat} {u : State} {key : Key} :
    u.get nr key = none ↔ u.find nr key = none := by
  unfold State.get
  split
  · exact iff_of_true rfl ‹_›
  · rename_i found
    rw [found]
    split <;> simp

section Put

variable (u : State) (x : Inst)

theorem State.setRefcnt_self (n : Int) : (u.setRefcnt x n).refcnt x = n :=
  Function.update_self ..

theorem State.setRefcnt_twice (m n : Int) : (u.setRefcnt x m).setRefcnt x n = u.setRefcnt x n := by
  simp only [State.setRefcnt, Function.update_idem]

theorem State.setRefcnt_same : u.setRefcnt x (u.refcnt x) = u := by
  simp only [State.setRefcnt, Function.update_eq_self]

theorem State.put_refcnt : (u.put x).refcnt = Function.update u.refcnt x (u.refcnt x - 1) := by
  unfold State.put
  split <;> rfl

theorem State.put_drv : (u.put x).drv = u.drv := by
  unfold State.put
  split <;> rfl

theorem State.put_ext : (u.put x).ext = u.ext := by
  unfold State.put
  split <;> rfl

theorem State.put_sq : (u.put x).sq = u.sq ∧ (u.put x).q = u.q := by
  unfold State.put
  split <;> exact ⟨rfl, rfl⟩

theorem State.put_slot_of_ne {key : Key} (other : key ≠ x.key) :
    (u.put x).slot key = u.slot key := by
  unfold State.put
  split
  · exact Function.update_of_ne other _ _
  · rfl

theorem State.put_slot_last (last : u.refcnt x - 1 = 0) : (u.put x).slot x.key = none := by
  rw [State.put, if_pos last]
  exact Function.update_self ..

end Put

/-- Discarding writes `q` only. -/
theorem State.discard_eq (u : State) (key : Key) : ∃ q, u.discard key = { u with q := q } := by
  unfold State.discard
  split
  · exact ⟨u.q, rfl⟩
  · exact ⟨_, rfl⟩

/-- A deletion is a put, but for the ghost list and `q`. -/
theorem State.delete_eq (u : State) (x : Inst) :
    ∃ q, u.delete x = { u with q := q, drv := u.drv.erase x }.put x := by
  obtain ⟨q, hq⟩ := u.discard_eq x.key
  exact ⟨q, by rw [State.delete, hq]; rfl⟩

end Unvmed.Queue
