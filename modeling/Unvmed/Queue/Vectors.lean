import Unvmed.Lib.Run
import Unvmed.Ctrl.Irq

/-!
CQs and the interrupt vectors they use (`lib/libunvmed.c`), one call after another.

A CQ that is set up with a vector takes the vector first and goes on the list of the vector's
reaper last; a CQ that is deleted leaves the list by the vector it has at that time. What
libvfn, the allocator and the controller answer during a call is part of the action. A slot
names the instances it ever held by a serial number, so a list entry for a freed instance is
told from one for the instance that took its place. The queues' other fields are in
`Unvmed.Queue.Lifetime`.
-/

namespace Unvmed.Vectors

open Lib Irq

/-- The fields of `struct unvme_cq` this is about. -/
structure Cq where
  serial : Nat
  refcnt : Nat := 1
  enabled : Bool := false
  /-- The instance has its libvfn queue: `q != NULL`. -/
  q : Bool := true
  vector : Int
  deriving DecidableEq, Repr

/-- `struct unvme_cq *`. -/
structure Ptr where
  qid : Nat
  serial : Nat
  deriving DecidableEq, Repr

structure State where
  /-- `u->cqs` -/
  cqs : Nat → Option Cq
  /-- How many instances were allocated for the slot so far. -/
  next : Nat → Nat
  irqs : Irqs Ptr

/-- No CQ is there, and no vector of the `nrIrqs` is used. -/
def start (nrIrqs : Nat) : State where
  cqs := fun _ => none
  next := fun _ => 0
  irqs := { nr := nrIrqs, reapers := fun _ => {}, started := 0, joined := 0 }

/-- What a call that sets a CQ up meets outside this code. -/
structure Outcome where
  /-- `unvmed_map_iova_to_mem` maps the caller's memory. -/
  mapped : Bool := true
  irq : InitOutcome := .ok
  /-- `unvmed_sq_get(u, 0)` finds the admin SQ. -/
  asq : Bool := true
  /-- libvfn has room for the queue. -/
  configured : Bool := true
  /-- An admin command is allocated. -/
  cmd : Bool := true
  /-- The admin command succeeds. -/
  cqeOk : Bool := true
  /-- `unvmed_init_ucq` allocates a new instance. -/
  allocated : Bool := true
  /-- `unvmed_reaper_add_cq` allocates a list entry. -/
  entry : Bool := true
  deriving DecidableEq, Repr

/-- What a call that deletes a CQ meets outside this code. -/
structure Deletion where
  asq : Bool := true
  cmd : Bool := true
  cqeOk : Bool := true
  /-- `vfio_disable_irq` succeeds. -/
  vfio : Bool := true
  deriving DecidableEq, Repr

/-- What `unvmed_create_adminq` meets outside this code. -/
structure AdminOutcome where
  /-- The controller is in `UNVME_DISABLED`. -/
  disabled : Bool := true
  cq : Outcome := {}
  /-- `unvmed_init_sq` succeeds. -/
  sq : Bool := true
  /-- `unvmed_configure_adminq` succeeds. -/
  configured : Bool := true
  vfio : Bool := true
  deriving DecidableEq, Repr

def State.setCq (s : State) (qid : Nat) (c : Option Cq) : State :=
  { s with cqs := Function.update s.cqs qid c }

/-- The CQ in a slot changes. -/
def State.modify (s : State) (qid : Nat) (f : Cq → Cq) : State :=
  s.setCq qid ((s.cqs qid).map f)

/-- `unvmed_enable_cq`, `unvmed_disable_cq`. -/
def State.setEnabled (s : State) (qid : Nat) (enabled : Bool) : State :=
  s.modify qid fun c => { c with enabled := enabled }

/-- `unvmed_disable_cq_all`. -/
def State.disableCqAll (s : State) : State :=
  { s with cqs := fun qid => (s.cqs qid).map fun c => { c with enabled := false } }

/-- `unvmed_discard_cq`. -/
def State.discardCq (s : State) (qid : Nat) : State := s.modify qid fun c => { c with q := false }

/-- `unvmed_cq_put`, on the CQ in the slot. -/
def State.cqPut (s : State) (qid : Nat) : State :=
  s.setCq qid ((s.cqs qid).bind fun c =>
    if c.refcnt - 1 = 0 then none else some { c with refcnt := c.refcnt - 1 })

/-! ### Creation -/

/-- `vector >= 0 && unvmed_init_irq(u, vector)`: whether the call goes on. -/
def State.takeIrq (s : State) (vector : Int) (o : InitOutcome) : Bool × State :=
  if vector < 0 then (true, s)
  else ((s.irqs.initIrq vector.toNat o).1, { s with irqs := (s.irqs.initIrq vector.toNat o).2 })

/-- A new instance is published with one reference. -/
def State.publish (s : State) (qid : Nat) (vector : Int) : State :=
  { s.setCq qid (some { serial := s.next qid, vector := vector }) with
    next := Function.update s.next qid (s.next qid + 1) }

/-- `unvmed_init_ucq`. The reference it takes on a CQ that is already there stays, except
when that CQ is enabled. -/
def State.initUcq (s : State) (qid : Nat) (vector : Int) (allocated : Bool) : Option State :=
  match s.cqs qid with
  | none => if allocated then some (s.publish qid vector) else none
  | some c =>
      if c.enabled then none
      else some (s.setCq qid (some { c with refcnt := c.refcnt + 1, q := true, vector := vector }))

/-- The CQ just initialised goes on its reaper's list, or has no interrupt at all. -/
def State.register (s : State) (qid : Nat) (vector : Int) (entry : Bool) : Option State :=
  match s.cqs qid with
  | none => some s
  | some c =>
      if vector < 0 then some (s.modify qid fun c => { c with vector := -1 })
      else match s.irqs.reaperAddCq ⟨qid, c.serial⟩ c.vector entry with
        | none => none
        | some irqs => some { s with irqs := irqs }

/-- How far a CQ gets. -/
inductive Progress where
  /-- It stops before `unvmed_init_ucq`. -/
  | stopped (s : State)
  /-- `unvmed_init_ucq` fails. -/
  | refused (s : State)
  /-- `unvmed_reaper_add_cq` fails. -/
  | unlisted (s : State)
  | done (s : State)

/-- What `unvmed_create_cq` and `__unvmed_init_cq` have in common; `pass` says whether all
goes well between `unvmed_init_irq` and `unvmed_init_ucq`. -/
def State.setUp (s : State) (qid : Nat) (vector : Int) (o : Outcome) (pass : Bool) : Progress :=
  match s.takeIrq vector o.irq with
  | (false, s) => .stopped s
  | (true, s) =>
      if !pass then .stopped s
      else match s.initUcq qid vector o.allocated with
        | none => .refused s
        | some s => match s.register qid vector o.entry with
            | none => .unlisted s
            | some s => .done s

/-- `nvme_configure_cq` of libvfn, whose arrays have `nr` CQs. -/
def Outcome.accepts (o : Outcome) (nr qid : Nat) : Bool := o.configured && decide (qid < nr)

/-- The steps of `unvmed_create_cq` between `unvmed_init_irq` and `unvmed_init_ucq`. -/
def Outcome.creates (o : Outcome) (nr qid : Nat) : Bool :=
  o.asq && o.accepts nr qid && o.cmd && o.cqeOk

/-- `unvmed_create_cq`. Where it fails it discards libvfn's queue, and the instance keeps
its `q`. -/
def State.createCq (nr : Nat) (s : State) (qid : Nat) (vector : Int) (o : Outcome) : State :=
  match s.setUp qid vector o (o.creates nr qid) with
  | .stopped s => s
  | .refused s => s
  | .unlisted s => s
  | .done s => s.setEnabled qid true

/-- `__unvmed_init_cq`, and whether it succeeds. When `unvmed_init_ucq` fails, the queue of
the CQ that is already there is discarded. -/
def State.initCq (nr : Nat) (s : State) (qid : Nat) (vector : Int) (o : Outcome) : Bool × State :=
  match s.setUp qid vector o (o.accepts nr qid) with
  | .stopped s => (false, s)
  | .refused s => (false, s.discardCq qid)
  | .unlisted s => (false, s)
  | .done s => (true, s)

/-- `unvmed_init_cq_iova`. -/
def State.initCqIova (nr : Nat) (s : State) (qid : Nat) (vector : Int) (o : Outcome) :
    Bool × State :=
  if o.mapped then s.initCq nr qid vector o else (false, s)

/-! ### Deletion -/

/-- `unvmed_reaper_del_cq`, for the CQ in the slot. -/
def State.reaperDelCq (s : State) (qid : Nat) : State :=
  match s.cqs qid with
  | none => s
  | some c => { s with irqs := s.irqs.reaperDelCq ⟨qid, c.serial⟩ c.vector }

/-- `__unvmed_delete_cq`, for the CQ in the slot. -/
def State.delete (s : State) (qid : Nat) (vfio : Bool) : State :=
  match s.cqs qid with
  | none => s
  | some c =>
      if 0 ≤ c.vector then
        let s := ((s.reaperDelCq qid).discardCq qid).cqPut qid
        { s with irqs := s.irqs.freeIrq c.vector.toNat vfio }
      else (s.discardCq qid).cqPut qid

/-- `unvmed_delete_cq`. -/
def State.deleteCq (s : State) (qid : Nat) (o : Deletion) : State :=
  if o.asq && o.cmd && o.cqeOk then s.delete qid o.vfio else s

/-- `unvmed_free_cq`. -/
def State.freeCq (s : State) (qid : Nat) (vfio : Bool) : State :=
  (s.setEnabled qid false).delete qid vfio

/-- One round of `__unvmed_delete_cq_all`; the reference it takes to look at the CQ is
put before the one it drops. -/
def State.deleteOne (s : State) (qid : Nat) : State := ((s.reaperDelCq qid).discardCq qid).cqPut qid

/-- What `unvmed_free_ctx` does to CQs: `__unvmed_delete_cq_all`. -/
def State.freeCtx (nr : Nat) (s : State) (vfio : Nat → Bool) : State :=
  let s := (List.range nr).foldl State.deleteOne s
  { s with irqs := s.irqs.freeIrqAll vfio }

/-- The loop of `unvmed_delete_iocq_all`, which ends when no command can be sent. -/
def State.deleteIocqs (o : Nat → Deletion) : State → List Nat → State
  | s, [] => s
  | s, qid :: qids =>
      if (s.cqs qid).isNone then s.deleteIocqs o qids
      else if (o qid).asq && (o qid).cmd then (s.deleteCq qid (o qid)).deleteIocqs o qids
      else s

/-- `unvmed_delete_iocq_all`. -/
def State.deleteIocqAll (nr : Nat) (s : State) (o : Nat → Deletion) : State :=
  s.deleteIocqs o (List.range' 1 (nr - 1))

/-! ### Controller -/

/-- `unvmed_create_adminq`. -/
def State.createAdminq (nr : Nat) (s : State) (irq : Bool) (o : AdminOutcome) : State :=
  if !o.disabled then s
  else match s.initCq nr 0 0 o.cq with
    | (false, s) => s
    | (true, s) =>
        if !(o.sq && o.configured) then s.freeCq 0 o.vfio
        -- `Override @q->vector of libvfn in case device has no irq to -1.`
        else if !irq || s.irqs.nr = 0 then s.modify 0 fun c => { c with vector := -1 }
        else s

/-- What `unvmed_reset_ctrl_graceful` does to CQs. It needs the admin CQ. -/
def State.resetGraceful (nr : Nat) (s : State) (o : Nat → Deletion) : Option State :=
  if (s.cqs 0).isNone then none
  else
    let s := ((s.disableCqAll.setEnabled 0 true).deleteIocqAll nr o).setEnabled 0 false
    some (s.delete 0 (o 0).vfio)

/-- A call. -/
inductive Act where
  | createAdminq (irq : Bool) (o : AdminOutcome)
  | createCq (qid : Nat) (vector : Int) (o : Outcome)
  | initCq (qid : Nat) (vector : Int) (o : Outcome)
  | initCqIova (qid : Nat) (vector : Int) (o : Outcome)
  | deleteCq (qid : Nat) (o : Deletion)
  | freeCq (qid : Nat) (vfio : Bool)
  /-- `unvmed_reset_ctrl` -/
  | reset
  | freeCtx (vfio : Nat → Bool)
  | resetGraceful (o : Nat → Deletion)

/-- One call of a controller with `nr` CQs. -/
def step (nr : Nat) (s : State) : Act → Option State
  | .createAdminq irq o => some (s.createAdminq nr irq o)
  | .createCq qid vector o => some (s.createCq nr qid vector o)
  | .initCq qid vector o => some (s.initCq nr qid vector o).2
  | .initCqIova qid vector o => some (s.initCqIova nr qid vector o).2
  | .deleteCq qid o => some (s.deleteCq qid o)
  | .freeCq qid vfio => some (s.freeCq qid vfio)
  | .reset => some s.disableCqAll
  | .freeCtx vfio => some (s.freeCtx nr vfio)
  | .resetGraceful o => s.resetGraceful nr o

/-! ### Equations -/

/-- `vector >= 0 && unvmed_init_irq(u, vector)` lets the call go on. -/
def State.irqReady (s : State) (vector : Int) (o : InitOutcome) : Bool :=
  decide (vector < 0) || (decide (vector.toNat < s.irqs.nr) &&
    (decide (0 < (s.irqs.reapers vector.toNat).refcnt) || o == .ok))

/-- `unvmed_create_adminq` reaches its end. -/
def State.adminqReady (nr : Nat) (s : State) (o : AdminOutcome) : Bool :=
  o.disabled && s.irqReady 0 o.cq.irq && o.cq.accepts nr 0 && (s.cqs 0).isNone &&
    o.cq.allocated && o.cq.entry && o.sq && o.configured

/-- All goes well for a CQ that is set up in an empty slot. -/
structure State.First (s : State) (qid : Nat) (vector : Int) (o : Outcome) (pass : Bool) :
    Prop where
  ready : s.irqReady vector o.irq = true
  passed : pass = true
  free : s.cqs qid = none
  allocated : o.allocated = true
  entry : vector < 0 ∨ o.entry = true

theorem Outcome.accepts_inside (o : Outcome) {nr qid : Nat} (accepted : o.accepts nr qid = true) :
    qid < nr := by
  simp only [Outcome.accepts, Bool.and_eq_true, decide_eq_true_eq] at accepted
  exact accepted.2

theorem Outcome.creates_inside (o : Outcome) {nr qid : Nat} (created : o.creates nr qid = true) :
    qid < nr := by
  simp only [Outcome.creates, Bool.and_eq_true] at created
  exact o.accepts_inside created.1.1.2

section Equations

variable (s : State) (qid : Nat)

@[simp] theorem State.setCq_self (c : Option Cq) : (s.setCq qid c).cqs qid = c :=
  Function.update_self ..

theorem State.setCq_other {k : Nat} (other : k ≠ qid) (c : Option Cq) :
    (s.setCq qid c).cqs k = s.cqs k :=
  Function.update_of_ne other _ _

/-- What the CQs keep when the CQ in one slot keeps it. -/
theorem State.modify_map {β : Type} (key : Cq → β) {f : Cq → Cq} (keep : ∀ c, key (f c) = key c)
    (k : Nat) : ((s.modify qid f).cqs k).map key = (s.cqs k).map key := by
  by_cases same : k = qid
  · subst same
    rw [State.modify, State.setCq_self, Option.map_map]
    exact congrArg (fun g => (s.cqs k).map g) (funext keep)
  · rw [State.modify, State.setCq_other _ _ same]

theorem State.disableCqAll_map {β : Type} (key : Cq → β)
    (keep : ∀ c, key { c with enabled := false } = key c) (k : Nat) :
    (s.disableCqAll.cqs k).map key = (s.cqs k).map key := by
  rw [State.disableCqAll, Option.map_map]
  exact congrArg (fun g => (s.cqs k).map g) (funext keep)

theorem State.takeIrq_masked {vector : Int} (masked : vector < 0) (o : InitOutcome) :
    s.takeIrq vector o = (true, s) :=
  if_pos masked

theorem State.takeIrq_cqs (vector : Int) (o : InitOutcome) :
    (s.takeIrq vector o).2.cqs = s.cqs := by
  unfold State.takeIrq
  split <;> rfl

theorem State.takeIrq_nr (vector : Int) (o : InitOutcome) :
    (s.takeIrq vector o).2.irqs.nr = s.irqs.nr := by
  unfold State.takeIrq
  split
  · rfl
  · exact Irqs.initIrq_nr ..

theorem State.takeIrq_fst (vector : Int) (o : InitOutcome) :
    (s.takeIrq vector o).1 = s.irqReady vector o := by
  unfold State.takeIrq State.irqReady Irqs.initIrq
  split
  · rename_i masked
    simp [masked]
  · rename_i irq
    simp only [irq, decide_false, Bool.false_or]
    split
    · rename_i outside
      simp [outside]
    · rename_i known
      split
      · rename_i used
        simp [used, not_le.mp known]
      · rename_i unused
        cases o <;> simp [unused, not_le.mp known]

/-- Only a vector that exists is taken. -/
theorem State.takeIrq_known {vector : Int} {o : InitOutcome}
    (taken : (s.takeIrq vector o).1 = true) : vector < s.irqs.nr := by
  rw [State.takeIrq_fst, State.irqReady] at taken
  simp only [Bool.or_eq_true, Bool.and_eq_true, decide_eq_true_eq] at taken
  omega

theorem State.initUcq_free {qid : Nat} (free : s.cqs qid = none) (vector : Int) (allocated : Bool) :
    s.initUcq qid vector allocated = if allocated then some (s.publish qid vector) else none := by
  rw [State.initUcq, free]

theorem State.initUcq_enabled {qid : Nat} {c : Cq} (there : s.cqs qid = some c)
    (enabled : c.enabled = true) (vector : Int) (allocated : Bool) :
    s.initUcq qid vector allocated = none := by
  rw [State.initUcq, there]
  exact if_pos enabled

/-- A new CQ that took its vector goes on the list only with an entry. -/
theorem State.register_entry {s' : State} {vector : Int} {o : InitOutcome} {entry : Bool}
    (taken : (s.takeIrq vector o).1 = true)
    (done : ((s.takeIrq vector o).2.publish qid vector).register qid vector entry = some s') :
    vector < 0 ∨ entry = true := by
  by_cases masked : vector < 0
  · exact .inl masked
  · right
    have known := s.takeIrq_known taken
    have there : ((s.takeIrq vector o).2.publish qid vector).cqs qid =
        some { serial := (s.takeIrq vector o).2.next qid, vector := vector } := State.setCq_self ..
    have irqs : ((s.takeIrq vector o).2.publish qid vector).irqs =
        (s.irqs.initIrq vector.toNat o).2 := by
      rw [State.takeIrq, if_neg masked]
      rfl
    have counted : ((s.irqs.initIrq vector.toNat o).2.reapers vector.toNat).refcnt ≠ 0 := by
      rw [State.takeIrq, if_neg masked] at taken
      rw [(s.irqs.initIrq_self vector.toNat o).1 taken]
      omega
    have bounds : ¬ (vector < 0 ∨ (s.irqs.initIrq vector.toNat o).2.nr ≤ vector.toNat) := by
      rw [Irqs.initIrq_nr]
      omega
    cases entry with
    | true => rfl
    | false =>
        simp only [State.register, there, if_neg masked, irqs,
          Irqs.reaperAddCq_taken _ _ bounds counted] at done
        cases done

theorem State.register_nr {s' : State} {vector : Int} {entry : Bool}
    (done : s.register qid vector entry = some s') : s'.irqs.nr = s.irqs.nr := by
  unfold State.register at done
  split at done
  · cases done
    rfl
  · split at done
    · cases done
      rfl
    · split at done
      · cases done
      · rename_i added
        cases done
        exact (Irqs.reaperAddCq_fields added).1

theorem State.initUcq_irqs {s' : State} {vector : Int} {allocated : Bool}
    (done : s.initUcq qid vector allocated = some s') : s'.irqs = s.irqs := by
  unfold State.initUcq at done
  split at done
  · split at done
    · cases done
      rfl
    · cases done
  · split at done
    · cases done
    · cases done
      rfl

/-- A CQ that is set up leaves the number of vectors. -/
theorem State.setUp_nr {s' : State} {vector : Int} {o : Outcome} {pass : Bool}
    (done : s.setUp qid vector o pass = .done s') : s'.irqs.nr = s.irqs.nr := by
  have nrs := s.takeIrq_nr vector o.irq
  unfold State.setUp at done
  split at done
  · cases done
  · rename_i t taken
    rw [taken] at nrs
    split at done
    · cases done
    · split at done
      · cases done
      · rename_i published
        split at done
        · cases done
        · rename_i registered
          cases done
          rw [State.register_nr _ _ registered, State.initUcq_irqs _ _ published]
          exact nrs

theorem State.initCq_nr {nr : Nat} {vector : Int} {o : Outcome}
    (done : (s.initCq nr qid vector o).1 = true) :
    (s.initCq nr qid vector o).2.irqs.nr = s.irqs.nr := by
  unfold State.initCq at done ⊢
  split at done
  · cases done
  · cases done
  · cases done
  · rename_i far
    exact s.setUp_nr qid far

theorem State.setCq_none {qid : Nat} (free : s.cqs qid = none) : s.setCq qid none = s := by
  rw [State.setCq, ← free, Function.update_eq_self]

theorem State.modify_none {qid : Nat} (free : s.cqs qid = none) (f : Cq → Cq) :
    s.modify qid f = s := by
  rw [State.modify, free, Option.map_none, s.setCq_none free]

theorem State.deleteOne_none {qid : Nat} (free : s.cqs qid = none) : s.deleteOne qid = s := by
  simp only [State.deleteOne, State.reaperDelCq, free, State.discardCq, s.modify_none free,
    State.cqPut, Option.bind_none, s.setCq_none free]

/-- The only reference is dropped, and the instance is freed. -/
theorem State.deleteOne_eq {qid : Nat} {c : Cq} (there : s.cqs qid = some c) (one : c.refcnt = 1) :
    s.deleteOne qid =
      { s.setCq qid none with irqs := s.irqs.reaperDelCq ⟨qid, c.serial⟩ c.vector } := by
  simp [State.deleteOne, State.reaperDelCq, there, State.discardCq, State.modify, State.cqPut, one,
    State.setCq]

theorem State.deleteOne_other {k : Nat} (other : k ≠ qid) : (s.deleteOne qid).cqs k = s.cqs k := by
  rw [State.deleteOne, State.cqPut, State.setCq_other _ _ other, State.discardCq, State.modify,
    State.setCq_other _ _ other]
  unfold State.reaperDelCq
  split <;> rfl

theorem State.delete_eq {qid : Nat} {c : Cq} (there : s.cqs qid = some c) (vfio : Bool) :
    s.delete qid vfio = if 0 ≤ c.vector then
        { s.deleteOne qid with irqs := (s.deleteOne qid).irqs.freeIrq c.vector.toNat vfio }
      else s.deleteOne qid := by
  simp only [State.delete, there]
  split
  · rfl
  · rename_i none
    have idle : s.reaperDelCq qid = s := by
      simp only [State.reaperDelCq, there, Irqs.reaperDelCq]
      rw [if_pos (.inl (not_le.mp none))]
    rw [State.deleteOne, idle]

end Equations

/-! ### Loops -/

section Loops

variable {P : State → Prop}

/-- **The loop of `__unvmed_delete_cq_all`.** It keeps what one round keeps, and no slot it
has passed holds a CQ. -/
theorem State.deleteAll_rule
    (keep : ∀ s qid, P s → P (s.deleteOne qid) ∧ (s.deleteOne qid).cqs qid = none) {s : State}
    (h : P s) (nr : Nat) :
    P ((List.range nr).foldl State.deleteOne s) ∧
      ∀ qid < nr, ((List.range nr).foldl State.deleteOne s).cqs qid = none := by
  induction nr with
  | zero => exact ⟨h, fun qid lt => absurd lt (Nat.not_lt_zero qid)⟩
  | succ nr ih =>
      obtain ⟨kept, gone⟩ := ih
      simp only [List.range_succ, List.foldl_append, List.foldl_cons, List.foldl_nil]
      obtain ⟨next, here⟩ := keep _ nr kept
      refine ⟨next, ?_⟩
      intro qid lt
      by_cases same : qid = nr
      · rw [same]
        exact here
      · rw [State.deleteOne_other _ _ same]
        exact gone qid (by omega)

/-- **The loop of `unvmed_delete_iocq_all`.** -/
theorem State.deleteIocqs_rule (keep : ∀ s qid vfio, P s → P (s.delete qid vfio))
    (o : Nat → Deletion) (qids : List Nat) {s : State} (h : P s) :
    P (s.deleteIocqs o qids) := by
  induction qids generalizing s with
  | nil => exact h
  | cons qid qids ih =>
      unfold State.deleteIocqs
      split
      · exact ih h
      · split
        · apply ih
          unfold State.deleteCq
          split
          · exact keep s qid _ h
          · exact h
        · exact h

/-- A graceful reset keeps what deletions and the `enabled` flags keep. -/
theorem State.resetGraceful_rule (flag : ∀ s qid enabled, P s → P (s.setEnabled qid enabled))
    (flags : ∀ s, P s → P s.disableCqAll) (keep : ∀ s qid vfio, P s → P (s.delete qid vfio))
    {nr : Nat} {s s' : State} {o : Nat → Deletion} (h : P s)
    (done : s.resetGraceful nr o = some s') : P s' := by
  unfold State.resetGraceful at done
  split at done
  · cases done
  · cases done
    exact keep _ _ _ (flag _ _ _ (State.deleteIocqs_rule keep o _ (flag _ _ _ (flags _ h))))

end Loops

/-- `unvmed_create_adminq` keeps what `__unvmed_init_cq` and `unvmed_free_cq` keep, as long as it
does not take the vector away from a CQ it has set up. -/
theorem State.createAdminq_rule {P : State → Prop} {nr : Nat} {s : State} {irq : Bool}
    {o : AdminOutcome} (h : P s)
    (init : o.disabled = true → P (s.initCq nr 0 0 o.cq).2 ∧
      ((s.initCq nr 0 0 o.cq).1 = true → s.First 0 0 o.cq (o.cq.accepts nr 0)))
    (free : ∀ s, P s → P (s.freeCq 0 o.vfio)) (mode : irq = true ∨ s.adminqReady nr o = false) :
    P (s.createAdminq nr irq o) := by
  unfold State.createAdminq
  cases disabled : o.disabled with
  | false => exact h
  | true =>
      obtain ⟨kept, first⟩ := init disabled
      simp only [Bool.not_true, Bool.false_eq_true, if_false]
      cases inited : s.initCq nr 0 0 o.cq with
      | mk success t =>
          rw [inited] at kept first
          cases success with
          | false => exact kept
          | true =>
              have alone := first rfl
              simp only
              split
              · exact free t kept
              · rename_i configured
                have known : 0 < t.irqs.nr := by
                  have nrs : (s.initCq nr 0 0 o.cq).2.irqs.nr = s.irqs.nr :=
                    s.initCq_nr 0 (by rw [inited])
                  have ready := alone.ready
                  rw [inited] at nrs
                  simp only [State.irqReady, lt_irrefl, decide_false, Bool.false_or,
                    Bool.and_eq_true, decide_eq_true_eq] at ready
                  exact nrs ▸ ready.1
                have through : s.adminqReady nr o = true := by
                  simp only [Bool.not_eq_true', Bool.not_eq_false] at configured
                  simp [State.adminqReady, disabled, alone.ready, alone.passed, alone.free,
                    alone.allocated, alone.entry.resolve_left (lt_irrefl 0), configured]
                rw [through] at mode
                have interrupts : irq = true := mode.resolve_right nofun
                rw [interrupts, if_neg (by simp; omega)]
                exact kept

/-- **One call.** What the flags and deletions keep is kept by every call that sets no CQ up; the
calls that do are left. -/
theorem step_rule {P : State → Prop} {nr : Nat} {s s' : State} {a : Act} (h : P s)
    (flag : ∀ s qid enabled, P s → P (s.setEnabled qid enabled))
    (flags : ∀ s, P s → P s.disableCqAll) (delete : ∀ s qid vfio, P s → P (s.delete qid vfio))
    (freeCtx : ∀ vfio, P s → P (s.freeCtx nr vfio))
    (createAdminq : ∀ irq o, a = .createAdminq irq o → P (s.createAdminq nr irq o))
    (createCq : ∀ qid vector o, a = .createCq qid vector o → P (s.createCq nr qid vector o))
    (initCq : ∀ qid vector o,
      a = .initCq qid vector o ∨ a = .initCqIova qid vector o ∧ o.mapped = true →
        P (s.initCq nr qid vector o).2)
    (hstep : step nr s a = some s') : P s' := by
  cases a with
  | createAdminq irq o =>
      cases hstep
      exact createAdminq irq o rfl
  | createCq qid vector o =>
      cases hstep
      exact createCq qid vector o rfl
  | initCq qid vector o =>
      cases hstep
      exact initCq qid vector o (.inl rfl)
  | initCqIova qid vector o =>
      cases hstep
      unfold State.initCqIova
      split
      · rename_i mapped
        exact initCq qid vector o (.inr ⟨rfl, mapped⟩)
      · exact h
  | deleteCq qid o =>
      cases hstep
      unfold State.deleteCq
      split
      · exact delete s qid o.vfio h
      · exact h
  | freeCq qid vfio =>
      cases hstep
      exact delete _ qid vfio (flag s qid false h)
  | reset =>
      cases hstep
      exact flags s h
  | freeCtx vfio =>
      cases hstep
      exact freeCtx vfio h
  | resetGraceful o => exact State.resetGraceful_rule flag flags delete h hstep

end Unvmed.Vectors
