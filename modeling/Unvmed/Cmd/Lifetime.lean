import Unvmed.Lib.Run
import Unvmed.Lib.Tally
import Unvmed.Basic

/-!
How long a command lives (`lib/libunvmed-cmds.c`).

The slots of `usq->cmds` are recycled without a lock. An allocation claims the id in the bitmap,
clears the slot, fills it and stores `refcnt = 1`; the put that takes `refcnt` to 0 clears the slot
and gives the id back last. In between, other threads (the timer handler) load `refcnt` and raise it
by compare-and-swap. Each of these accesses is one step here, field by field, and any number of
threads interleave. Nothing is assumed about the order in which `memset` clears the fields.

An allocation is named by its id and by how often the id was handed out before (`Alloc`).

* `command_lifetime`: in every run each allocation is freed once, and it is when its last reference
  is put; a get that succeeds finds a live allocation; a free writes to a slot only while the id is
  its own; and `nr_cmds` is never less than the number of live allocations.
-/

namespace Unvmed.CmdLife

open Lib

/-- The fields of `struct unvme_cmd`. -/
inductive Field where
  | u
  | refcnt
  | state
  | flags
  | usq
  | vcq
  | cid
  | rq
  | buf
  | mbuf
  /-- `cmd->opaque` -/
  | data
  | completed
  | timeout
  | sqe
  | cqe
  | injected
  deriving DecidableEq, Repr

/-- The rest of the library writes to this field. -/
def Field.soft : Field → Bool
  | .u | .refcnt | .usq | .cid | .rq | .injected => false
  | .state | .flags | .vcq | .buf | .mbuf | .data | .completed | .timeout | .sqe | .cqe => true

/-- A use of a slot: `gen` counts the claims of the id before this one. -/
structure Alloc where
  cid : Nat
  gen : Nat
  deriving DecidableEq, Repr

/-- The variables of `__unvmed_cmd_free`. -/
structure Locals where
  rq : ℤ
  cid : ℤ
  freeCmd : Bool
  deriving DecidableEq, Repr

/-- Where a thread is; each name says which access comes next. -/
inductive Pc where
  | idle
  /-- `__unvmed_cmd_alloc` owns the id: `nvme_rq_acquire_atomic`. -/
  | rqAcquire (x : Alloc) (vcq : ℤ)
  /-- There is no request: `unvmed_cid_free`. -/
  | cidUndo (x : Alloc)
  | nrInc (x : Alloc) (rq vcq : ℤ)
  /-- `memset`, with the fields that are left. -/
  | clear (x : Alloc) (rq vcq : ℤ) (todo : List Field)
  /-- The stores before `cmd->refcnt = 1`, and that one. -/
  | store (x : Alloc) (vcq : ℤ) (todo : List (Field × ℤ))
  /-- The stores after it, and the return. -/
  | tail (x : Alloc) (todo : List (Field × ℤ))
  /-- `unvmed_cmd_get`: load of `refcnt`. -/
  | load (cid : Nat)
  | cas (cid : Nat) (old : ℤ)
  /-- `unvmed_cmd_put`: `atomic_dec_fetch`. -/
  | dec (x : Alloc)
  /-- `__unvmed_cmd_free`: reads of `rq`, `cid` and `injected`. -/
  | freeRead (x : Alloc)
  /-- Its `memset`. -/
  | freeClear (x : Alloc) (l : Locals) (todo : List Field)
  | freeDec (x : Alloc) (l : Locals)
  | freeRq (x : Alloc) (l : Locals)
  /-- `unvmed_cid_free` -/
  | freeCid (x : Alloc) (l : Locals)
  deriving DecidableEq, Repr

/-- A submission queue, its threads, and what happened so far. -/
structure State (ι : Type) where
  /-- `usq->cids.size` -/
  size : Nat
  /-- The bits of `usq->cids`. -/
  cids : Nat → Bool
  /-- `usq->nr_cmds` -/
  nrCmds : ℤ
  /-- `usq->cmds` -/
  cmds : Nat → Field → ℤ
  /-- The free requests of libvfn's queue. -/
  rqs : List ℤ
  pcs : ι → Pc
  /-- How often an id was claimed. -/
  gen : Nat → Nat
  /-- The references that were returned and not put yet. -/
  holders : List Alloc
  /-- The allocations that returned, up to the put that takes their count to 0. -/
  out : List Alloc
  /-- The allocations whose free is done, and those that found no request. -/
  freed : List Alloc
  aborted : List Alloc

inductive Act (ι : Type) where
  /-- `__unvmed_cmd_alloc` claims a free id, its own choice or the caller's. -/
  | alloc (t : ι) (cid : Nat) (vcq : ℤ)
  | get (t : ι) (cid : Nat)
  /-- A holder puts its reference. -/
  | put (t : ι) (x : Alloc)
  /-- The rest of the library writes to a slot. -/
  | write (cid : Nat) (f : Field) (v : ℤ)
  | step (t : ι)
  deriving Repr

section Step

variable {ι : Type} [DecidableEq ι]

def State.goto (s : State ι) (t : ι) (pc : Pc) : State ι :=
  { s with pcs := Function.update s.pcs t pc }

def State.set (s : State ι) (cid : Nat) (f : Field) (v : ℤ) : State ι :=
  { s with cmds := Function.update s.cmds cid (Function.update (s.cmds cid) f v) }

/-- The last allocation the id was handed to. -/
def State.current (s : State ι) (cid : Nat) : Alloc := ⟨cid, s.gen cid - 1⟩

/-- A reference is handed to the caller. -/
def State.hand (s : State ι) (x : Alloc) : State ι := { s with holders := x :: s.holders }

def State.setCid (s : State ι) (cid : Nat) (b : Bool) : State ι :=
  { s with cids := Function.update s.cids cid b }

/-- `unvmed_cid_free` -/
def State.cidFree (s : State ι) (cid : Nat) : State ι :=
  if s.size ≤ cid then s else s.setCid cid false

/-- The pointers to the controller and to the queue. -/
def ptr : ℤ := 1

/-- `UNVME_CMD_S_ALLOCATED` and `UNVMED_CMD_INJECT_CONFLICT` -/
def allocated : ℤ := 1
def conflict : ℤ := 1

/-- The next access of thread `t`; `order` is how `memset` goes over the fields. -/
def State.advance (order : List Field) (s : State ι) (t : ι) : Pc → Option (State ι)
  | .idle => none
  | .rqAcquire x vcq => match s.rqs with
      | [] => some (s.goto t (.cidUndo x))
      | rq :: rqs => some ({ s with rqs := rqs }.goto t (.nrInc x rq vcq))
  | .cidUndo x => some ({ s.cidFree x.cid with aborted := x :: s.aborted }.goto t .idle)
  | .nrInc x rq vcq =>
      some ({ s with nrCmds := s.nrCmds + 1 }.goto t (.clear x rq vcq order))
  | .clear x rq vcq (f :: todo) => some ((s.set x.cid f 0).goto t (.clear x rq vcq todo))
  | .clear x rq vcq [] =>
      some (s.goto t (.store x vcq [(.cid, x.cid), (.u, ptr), (.usq, ptr), (.rq, rq)]))
  | .store x vcq ((f, v) :: todo) => some ((s.set x.cid f v).goto t (.store x vcq todo))
  | .store x vcq [] =>
      some ((s.set x.cid .refcnt 1).goto t (.tail x [(.state, allocated), (.vcq, vcq)]))
  | .tail x ((f, v) :: todo) => some ((s.set x.cid f v).goto t (.tail x todo))
  | .tail x [] => some ({ s.hand x with out := x :: s.out }.goto t .idle)
  | .load cid =>
      let refcnt := s.cmds cid .refcnt
      if 0 < refcnt then some (s.goto t (.cas cid refcnt))
      else if refcnt = 0 then some (s.goto t .idle)
      -- A count below 0 is not raised, and the command is returned.
      else some ((s.hand (s.current cid)).goto t .idle)
  | .cas cid old =>
      if s.cmds cid .refcnt = old then
        some (((s.set cid .refcnt (old + 1)).hand (s.current cid)).goto t .idle)
      else some (s.goto t (.load cid))
  | .dec x =>
      let refcnt := s.cmds x.cid .refcnt - 1
      if refcnt = 0 then
        some ({ s.set x.cid .refcnt refcnt with out := s.out.erase x }.goto t (.freeRead x))
      else some ((s.set x.cid .refcnt refcnt).goto t .idle)
  | .freeRead x =>
      let l := ⟨s.cmds x.cid .rq, s.cmds x.cid .cid, s.cmds x.cid .injected ≠ conflict⟩
      some (s.goto t (.freeClear x l order))
  | .freeClear x l (f :: todo) => some ((s.set x.cid f 0).goto t (.freeClear x l todo))
  | .freeClear x l [] => some (s.goto t (.freeDec x l))
  | .freeDec x l => some ({ s with nrCmds := s.nrCmds - 1 }.goto t (.freeRq x l))
  | .freeRq x l => some ({ s with rqs := l.rq :: s.rqs }.goto t (.freeCid x l))
  | .freeCid x l =>
      let s' := if l.freeCmd then s.cidFree l.cid.toNat else s
      some ({ s' with freed := x :: s.freed }.goto t .idle)

/-- One atomic step. -/
def step (order : List Field) (s : State ι) : Act ι → Option (State ι)
  | .alloc t cid vcq =>
      if s.pcs t = .idle ∧ cid < s.size ∧ s.cids cid = false then
        some ({ s.setCid cid true with gen := Function.update s.gen cid (s.gen cid + 1) }.goto t
          (.rqAcquire ⟨cid, s.gen cid⟩ vcq))
      else none
  | .get t cid => if s.pcs t = .idle then some (s.goto t (.load cid)) else none
  | .put t x =>
      if s.pcs t = .idle ∧ x ∈ s.holders then
        some ({ s with holders := s.holders.erase x }.goto t (.dec x))
      else none
  | .write cid f v => if f.soft then some (s.set cid f v) else none
  | .step t => s.advance order t (s.pcs t)

end Step

/-- A queue with free slots and the requests `rqs`. -/
def start (ι : Type) (size : Nat) (rqs : List ℤ) : State ι where
  size := size
  cids _ := false
  nrCmds := 0
  cmds _ _ := 0
  rqs := rqs
  pcs _ := .idle
  gen _ := 0
  holders := []
  out := []
  freed := []
  aborted := []

/-! ### What the count is for -/

/-- 1 for a thread that allocates `x` and has not stored its count. -/
def Pc.starting (x : Alloc) : Pc → Nat
  | .rqAcquire y _ | .cidUndo y | .nrInc y _ _ | .clear y _ _ _ | .store y _ _ =>
      if y = x then 1 else 0
  | _ => 0

/-- 1 for a thread that has stored the count of `x` and not returned yet. -/
def Pc.returning (x : Alloc) : Pc → Nat
  | .tail y _ => if y = x then 1 else 0
  | _ => 0

/-- 1 for a thread in `__unvmed_cmd_free` of `x`. -/
def Pc.freeing (x : Alloc) : Pc → Nat
  | .freeRead y | .freeClear y _ _ | .freeDec y _ | .freeRq y _ | .freeCid y _ =>
      if y = x then 1 else 0
  | _ => 0

/-- 1 for a thread that is about to put a reference to `x`. -/
def Pc.dropping (x : Alloc) : Pc → Nat
  | .dec y => if y = x then 1 else 0
  | _ => 0

/-- 1 for a thread that has a reference to `x` inside a function. -/
def Pc.holds (x : Alloc) (pc : Pc) : Nat := pc.returning x + pc.dropping x

/-- 1 for a thread that has stored the count of some allocation and not returned yet. -/
def Pc.anyReturning : Pc → Nat
  | .tail _ _ => 1
  | _ => 0

section Spec

variable {ι : Type} [Fintype ι]

/-- The references to `x` that someone still has to put. -/
def State.refs (s : State ι) (x : Alloc) : Nat := s.holders.count x + tally (Pc.holds x) s.pcs

/-- 1 from the store of the count of `x` to the put that takes it to 0. -/
def State.live (s : State ι) (x : Alloc) : Nat := s.out.count x + tally (Pc.returning x) s.pcs

/-- The number of live allocations. -/
def State.nrLive (s : State ι) : Nat := s.out.length + tally Pc.anyReturning s.pcs

def State.freeing (s : State ι) (x : Alloc) : Nat := tally (Pc.freeing x) s.pcs

def State.starting (s : State ι) (x : Alloc) : Nat := tally (Pc.starting x) s.pcs

/-- An allocation that was begun is being made, or live, or being freed, or it was freed once or
found no request. It is live as long as it is referenced, and `nr_cmds` covers the live ones. When
no call is running and nobody has a reference, every allocation was freed once. -/
structure State.Sound (s : State ι) : Prop where
  once : ∀ x, x.gen < s.gen x.cid →
    s.starting x + s.live x + s.freeing x + s.freed.count x + s.aborted.count x = 1
  referenced : ∀ x, 0 < s.live x ↔ 0 < s.refs x
  covered : (s.nrLive : ℤ) ≤ s.nrCmds
  settled : (∀ t, s.pcs t = .idle) → s.holders = [] → ∀ x, x.gen < s.gen x.cid →
    s.freed.count x + s.aborted.count x = 1

/-- A get that returns a command found a live allocation in the slot, and a free that writes to the
slot does so before the id is handed to a new allocation. -/
def StepSound (s : State ι) (a : Act ι) (s' : State ι) : Prop :=
  match a with
  | .step t => match s.pcs t with
      | .load cid | .cas cid _ => s'.holders ≠ s.holders → 0 < s.live (s.current cid) ∧
          s'.holders = s.current cid :: s.holders
      | .freeClear x _ (_ :: _) => s.gen x.cid = x.gen + 1 ∧ s.cids x.cid = true
      | _ => True
  | _ => True

end Spec

/-! ### What a step does -/

section Effect

variable {ι : Type} [DecidableEq ι]

/-- Everything a step can do. -/
inductive Effect (order : List Field) (s : State ι) : Act ι → State ι → Prop
  | claim {t : ι} {cid : Nat} {vcq : ℤ} (idle : s.pcs t = .idle) (lt : cid < s.size)
      (free : s.cids cid = false) :
      Effect order s (.alloc t cid vcq)
        ({ s.setCid cid true with gen := Function.update s.gen cid (s.gen cid + 1) }.goto t
          (.rqAcquire ⟨cid, s.gen cid⟩ vcq))
  | look {t : ι} {cid : Nat} (idle : s.pcs t = .idle) :
      Effect order s (.get t cid) (s.goto t (.load cid))
  | drop {t : ι} {x : Alloc} (idle : s.pcs t = .idle) (held : x ∈ s.holders) :
      Effect order s (.put t x) ({ s with holders := s.holders.erase x }.goto t (.dec x))
  | write {cid : Nat} {f : Field} {v : ℤ} (soft : f.soft = true) :
      Effect order s (.write cid f v) (s.set cid f v)
  | noRq {t : ι} {x : Alloc} {vcq : ℤ} (at_ : s.pcs t = .rqAcquire x vcq) :
      Effect order s (.step t) (s.goto t (.cidUndo x))
  | gotRq {t : ι} {x : Alloc} {vcq rq : ℤ} {rqs : List ℤ} (at_ : s.pcs t = .rqAcquire x vcq) :
      Effect order s (.step t) ({ s with rqs := rqs }.goto t (.nrInc x rq vcq))
  | undo {t : ι} {x : Alloc} (at_ : s.pcs t = .cidUndo x) :
      Effect order s (.step t) ({ s.cidFree x.cid with aborted := x :: s.aborted }.goto t .idle)
  | inc {t : ι} {x : Alloc} {rq vcq : ℤ} (at_ : s.pcs t = .nrInc x rq vcq) :
      Effect order s (.step t)
        ({ s with nrCmds := s.nrCmds + 1 }.goto t (.clear x rq vcq order))
  | clear {t : ι} {x : Alloc} {rq vcq : ℤ} {f : Field} {todo : List Field}
      (at_ : s.pcs t = .clear x rq vcq (f :: todo)) :
      Effect order s (.step t) ((s.set x.cid f 0).goto t (.clear x rq vcq todo))
  | cleared {t : ι} {x : Alloc} {rq vcq : ℤ} (at_ : s.pcs t = .clear x rq vcq []) :
      Effect order s (.step t)
        (s.goto t (.store x vcq [(.cid, x.cid), (.u, ptr), (.usq, ptr), (.rq, rq)]))
  | store {t : ι} {x : Alloc} {vcq v : ℤ} {f : Field} {todo : List (Field × ℤ)}
      (at_ : s.pcs t = .store x vcq ((f, v) :: todo)) :
      Effect order s (.step t) ((s.set x.cid f v).goto t (.store x vcq todo))
  | publish {t : ι} {x : Alloc} {vcq : ℤ} (at_ : s.pcs t = .store x vcq []) :
      Effect order s (.step t)
        ((s.set x.cid .refcnt 1).goto t (.tail x [(.state, allocated), (.vcq, vcq)]))
  | finish {t : ι} {x : Alloc} {v : ℤ} {f : Field} {todo : List (Field × ℤ)}
      (at_ : s.pcs t = .tail x ((f, v) :: todo)) :
      Effect order s (.step t) ((s.set x.cid f v).goto t (.tail x todo))
  | return_ {t : ι} {x : Alloc} (at_ : s.pcs t = .tail x []) :
      Effect order s (.step t) ({ s.hand x with out := x :: s.out }.goto t .idle)
  | seen {t : ι} {cid : Nat} (at_ : s.pcs t = .load cid) (pos : 0 < s.cmds cid .refcnt) :
      Effect order s (.step t) (s.goto t (.cas cid (s.cmds cid .refcnt)))
  | miss {t : ι} {cid : Nat} (at_ : s.pcs t = .load cid) :
      Effect order s (.step t) (s.goto t .idle)
  | below {t : ι} {cid : Nat} (at_ : s.pcs t = .load cid) (neg : s.cmds cid .refcnt < 0) :
      Effect order s (.step t) ((s.hand (s.current cid)).goto t .idle)
  | take {t : ι} {cid : Nat} (at_ : s.pcs t = .cas cid (s.cmds cid .refcnt)) :
      Effect order s (.step t)
        (((s.set cid .refcnt (s.cmds cid .refcnt + 1)).hand (s.current cid)).goto t .idle)
  | retry {t : ι} {cid : Nat} {old : ℤ} (at_ : s.pcs t = .cas cid old) :
      Effect order s (.step t) (s.goto t (.load cid))
  | last {t : ι} {x : Alloc} (at_ : s.pcs t = .dec x) (one : s.cmds x.cid .refcnt - 1 = 0) :
      Effect order s (.step t)
        ({ s.set x.cid .refcnt (s.cmds x.cid .refcnt - 1) with out := s.out.erase x }.goto t
          (.freeRead x))
  | dec {t : ι} {x : Alloc} (at_ : s.pcs t = .dec x) (more : s.cmds x.cid .refcnt - 1 ≠ 0) :
      Effect order s (.step t)
        ((s.set x.cid .refcnt (s.cmds x.cid .refcnt - 1)).goto t .idle)
  | read {t : ι} {x : Alloc} (at_ : s.pcs t = .freeRead x) :
      Effect order s (.step t) (s.goto t (.freeClear x
        ⟨s.cmds x.cid .rq, s.cmds x.cid .cid, s.cmds x.cid .injected ≠ conflict⟩ order))
  | wipe {t : ι} {x : Alloc} {l : Locals} {f : Field} {todo : List Field}
      (at_ : s.pcs t = .freeClear x l (f :: todo)) :
      Effect order s (.step t) ((s.set x.cid f 0).goto t (.freeClear x l todo))
  | wiped {t : ι} {x : Alloc} {l : Locals} (at_ : s.pcs t = .freeClear x l []) :
      Effect order s (.step t) (s.goto t (.freeDec x l))
  | count {t : ι} {x : Alloc} {l : Locals} (at_ : s.pcs t = .freeDec x l) :
      Effect order s (.step t) ({ s with nrCmds := s.nrCmds - 1 }.goto t (.freeRq x l))
  | release {t : ι} {x : Alloc} {l : Locals} (at_ : s.pcs t = .freeRq x l) :
      Effect order s (.step t) ({ s with rqs := l.rq :: s.rqs }.goto t (.freeCid x l))
  | free {t : ι} {x : Alloc} {l : Locals} (at_ : s.pcs t = .freeCid x l) :
      Effect order s (.step t)
        ({ (if l.freeCmd then s.cidFree l.cid.toNat else s) with freed := x :: s.freed }.goto t
          .idle)

theorem advance_effect {order : List Field} {s s' : State ι} {t : ι}
    (hstep : s.advance order t (s.pcs t) = some s') : Effect order s (.step t) s' := by
  cases hpc : s.pcs t with
  | idle => simp [State.advance, hpc] at hstep
  | rqAcquire x vcq =>
      simp only [State.advance, hpc] at hstep
      split at hstep <;> cases hstep
      · exact .noRq hpc
      · exact .gotRq hpc
  | load cid =>
      simp only [State.advance, hpc] at hstep
      split at hstep
      · cases hstep
        exact .seen hpc ‹_›
      · split at hstep <;> cases hstep
        · exact .miss hpc
        · exact .below hpc (by omega)
  | cas cid old =>
      simp only [State.advance, hpc] at hstep
      split at hstep <;> cases hstep
      · rename_i same
        subst same
        exact .take hpc
      · exact .retry hpc
  | dec x =>
      simp only [State.advance, hpc] at hstep
      split at hstep <;> cases hstep
      · exact .last hpc ‹_›
      · exact .dec hpc ‹_›
  | clear x rq vcq todo =>
      cases todo <;> simp only [State.advance, hpc, Option.some.injEq] at hstep <;> subst hstep
      · exact .cleared hpc
      · exact .clear hpc
  | store x vcq todo =>
      cases todo <;> simp only [State.advance, hpc, Option.some.injEq] at hstep <;> subst hstep
      · exact .publish hpc
      · exact .store hpc
  | tail x todo =>
      cases todo <;> simp only [State.advance, hpc, Option.some.injEq] at hstep <;> subst hstep
      · exact .return_ hpc
      · exact .finish hpc
  | freeClear x l todo =>
      cases todo <;> simp only [State.advance, hpc, Option.some.injEq] at hstep <;> subst hstep
      · exact .wiped hpc
      · exact .wipe hpc
  | cidUndo x =>
      simp only [State.advance, hpc, Option.some.injEq] at hstep
      subst hstep
      exact .undo hpc
  | nrInc x rq vcq =>
      simp only [State.advance, hpc, Option.some.injEq] at hstep
      subst hstep
      exact .inc hpc
  | freeRead x =>
      simp only [State.advance, hpc, Option.some.injEq] at hstep
      subst hstep
      exact .read hpc
  | freeDec x l =>
      simp only [State.advance, hpc, Option.some.injEq] at hstep
      subst hstep
      exact .count hpc
  | freeRq x l =>
      simp only [State.advance, hpc, Option.some.injEq] at hstep
      subst hstep
      exact .release hpc
  | freeCid x l =>
      simp only [State.advance, hpc, Option.some.injEq] at hstep
      subst hstep
      exact .free hpc

theorem step_effect {order : List Field} {s s' : State ι} {a : Act ι}
    (hstep : step order s a = some s') : Effect order s a s' := by
  cases a with
  | alloc t cid vcq =>
      simp only [step] at hstep
      split at hstep <;> cases hstep
      rename_i ok
      exact .claim ok.1 ok.2.1 ok.2.2
  | get t cid =>
      simp only [step] at hstep
      split at hstep <;> cases hstep
      exact .look ‹_›
  | put t x =>
      simp only [step] at hstep
      split at hstep <;> cases hstep
      rename_i ok
      exact .drop ok.1 ok.2
  | write cid f v =>
      simp only [step] at hstep
      split at hstep <;> cases hstep
      exact .write ‹_›
  | step t => exact advance_effect hstep

end Effect

/-! ### Who owns a slot -/

/-- 1 for a thread that writes to the slot of `x` as its only owner. -/
def Pc.working (x : Alloc) (pc : Pc) : Nat := pc.starting x + pc.freeing x

/-- 1 for an allocation that was begun. -/
def Alloc.born (gen : Nat → Nat) (x : Alloc) : Nat := if x.gen < gen x.cid then 1 else 0

section Owned

variable {ι : Type} [Fintype ι]

def State.working (s : State ι) (x : Alloc) : Nat := tally (Pc.working x) s.pcs

/-- 1 for the allocation that has the id. -/
def State.owner (s : State ι) (x : Alloc) : Nat :=
  if s.cids x.cid = true ∧ s.gen x.cid = x.gen + 1 then 1 else 0

/-- A set bit belongs to the last allocation of its id, which one thread works on or which is live;
all others are done. -/
structure State.Owned (s : State ι) : Prop where
  own : ∀ x, s.working x + s.live x = s.owner x
  once : ∀ x, s.owner x + s.freed.count x + s.aborted.count x = x.born s.gen

theorem start_tally (size : Nat) (rqs : List ℤ) {w : Pc → Nat} (h : w .idle = 0) :
    tally w (start ι size rqs).pcs = 0 :=
  tally_eq_zero fun _ => h

theorem start_owned (size : Nat) (rqs : List ℤ) : (start ι size rqs).Owned := by
  refine ⟨?_, ?_⟩
  · intro x
    have working := start_tally (ι := ι) size rqs (w := Pc.working x) rfl
    have returning := start_tally (ι := ι) size rqs (w := Pc.returning x) rfl
    simp only [State.working, State.live, working, returning]
    rfl
  · intro x
    rfl

omit [Fintype ι] in
theorem State.owner_le (s : State ι) (x : Alloc) : s.owner x ≤ 1 := by
  unfold State.owner
  split <;> omega

theorem State.Owned.live_le {s : State ι} (h : s.Owned) (x : Alloc) : s.live x ≤ 1 := by
  have own := h.own x
  have := s.owner_le x
  omega

/-- What is worked on or live has the id. -/
theorem State.Owned.current {s : State ι} (h : s.Owned) {x : Alloc}
    (some : 0 < s.working x + s.live x) : s.cids x.cid = true ∧ s.gen x.cid = x.gen + 1 := by
  have own := h.own x
  unfold State.owner at own
  split at own
  · assumption
  · omega

theorem State.working_pos {s : State ι} {t : ι} {x : Alloc} (at_ : (s.pcs t).working x = 1) :
    0 < s.working x := by
  have := le_tally (Pc.working x) s.pcs t
  unfold State.working
  omega

/-- The allocation a thread works on is not live. -/
theorem State.Owned.not_live {s : State ι} (h : s.Owned) {t : ι} {x : Alloc}
    (at_ : (s.pcs t).working x = 1) : s.live x = 0 := by
  have own := h.own x
  have := s.owner_le x
  have := State.working_pos at_
  omega

/-- Two allocations with one id that are worked on or live are the same. -/
theorem State.Owned.same {s : State ι} (h : s.Owned) {x y : Alloc} (cid : x.cid = y.cid)
    (hx : 0 < s.working x + s.live x) (hy : 0 < s.working y + s.live y) : x = y := by
  have curx := (h.current hx).2
  have cury := (h.current hy).2
  rw [cid] at curx
  obtain ⟨xcid, xgen⟩ := x
  obtain ⟨ycid, ygen⟩ := y
  simp only at cid curx cury
  subst cid
  have : xgen = ygen := by omega
  subst this
  rfl

variable [DecidableEq ι]

/-- Where a thread works on the slot, no other thread works on it or returns it. -/
theorem State.Owned.sole {s : State ι} (h : s.Owned) {t u : ι} {x y : Alloc}
    (at_ : (s.pcs t).working y = 1) (other : u ≠ t)
    (mine : 0 < (s.pcs u).working x + (s.pcs u).returning x) : x.cid ≠ y.cid := by
  intro cid
  have wx := le_tally (Pc.working x) s.pcs u
  have rx := le_tally (Pc.returning x) s.pcs u
  have posx : 0 < s.working x + s.live x := by
    simp only [State.working, State.live]
    omega
  have same := h.same cid posx (Nat.add_pos_left (State.working_pos at_) _)
  subst same
  have notlive := h.not_live at_
  have own := h.own x
  have := s.owner_le x
  have alone := tally_sole (w := Pc.working x) (f := s.pcs) (i := t) (j := u)
    (by simp only [State.working] at own; omega) at_ other
  simp only [State.live] at notlive
  omega

/-- A thread moves while the allocations handed out change in balance with its own part. -/
theorem State.Owned.goto {s s₁ : State ι} (h : s.Owned) {t : ι} {pc : Pc} (pcs : s₁.pcs = s.pcs)
    (cids : s₁.cids = s.cids) (gen : s₁.gen = s.gen) (freed : s₁.freed = s.freed)
    (aborted : s₁.aborted = s.aborted)
    (balance : ∀ x, s₁.out.count x + pc.working x + pc.returning x =
      s.out.count x + (s.pcs t).working x + (s.pcs t).returning x) :
    (s₁.goto t pc).Owned := by
  refine ⟨?_, ?_⟩
  · intro x
    have own := h.own x
    have working := tally_update (Pc.working x) s.pcs t pc
    have returning := tally_update (Pc.returning x) s.pcs t pc
    have := balance x
    simp only [State.working, State.live, State.owner, State.goto, pcs, cids, gen] at *
    omega
  · intro x
    have once := h.once x
    simp only [State.owner, State.goto, cids, gen, freed, aborted] at *
    exact once

/-- An id is claimed. -/
theorem State.Owned.claim {s : State ι} (h : s.Owned) {t : ι} {cid : Nat} {vcq : ℤ}
    (idle : s.pcs t = .idle) (free : s.cids cid = false) :
    ({ s.setCid cid true with gen := Function.update s.gen cid (s.gen cid + 1) }.goto t
      (.rqAcquire ⟨cid, s.gen cid⟩ vcq)).Owned := by
  refine ⟨?_, ?_⟩
  · intro x
    have own := h.own x
    have working := tally_update (Pc.working x) s.pcs t (.rqAcquire ⟨cid, s.gen cid⟩ vcq)
    have returning := tally_update (Pc.returning x) s.pcs t (.rqAcquire ⟨cid, s.gen cid⟩ vcq)
    obtain ⟨c, g⟩ := x
    by_cases same : c = cid
    · subst same
      simp only [State.working, State.live, State.owner, State.goto, State.setCid, idle,
        Pc.working, Pc.starting, Pc.freeing, Pc.returning, free, Bool.false_eq_true, false_and,
        if_false, Function.update_self, true_and, Alloc.mk.injEq, Nat.add_right_cancel_iff] at *
      omega
    · simp only [State.working, State.live, State.owner, State.goto, State.setCid, idle,
        Pc.working, Pc.starting, Pc.freeing, Pc.returning, Alloc.mk.injEq, Ne.symm same,
        Function.update_of_ne same, false_and, if_false] at *
      omega
  · intro x
    have once := h.once x
    obtain ⟨c, g⟩ := x
    by_cases same : c = cid
    · subst same
      simp only [State.owner, State.goto, State.setCid, Alloc.born, free, Bool.false_eq_true,
        false_and, if_false, Function.update_self, true_and] at *
      split at once <;> split <;> split <;> omega
    · simp only [State.owner, State.goto, State.setCid, Alloc.born,
        Function.update_of_ne same] at *
      exact once

/-- The id of an allocation that a thread works on is given back. -/
theorem State.Owned.giveBack {s : State ι} (h : s.Owned) {t : ι} {x : Alloc}
    {freed aborted : List Alloc} (at_ : ∀ y, (s.pcs t).working y = if x = y then 1 else 0)
    (returning : ∀ y, (s.pcs t).returning y = 0)
    (done : ∀ y, freed.count y + aborted.count y =
      s.freed.count y + s.aborted.count y + if x = y then 1 else 0) :
    ({ s.setCid x.cid false with freed := freed, aborted := aborted }.goto t .idle).Owned := by
  have cur := h.current (Nat.add_pos_left (State.working_pos ((at_ x).trans (if_pos rfl))) _)
  have owner : ∀ y, ({ s.setCid x.cid false with freed := freed, aborted := aborted }.goto t
      Pc.idle).owner y + (if x = y then 1 else 0) = s.owner y := by
    intro y
    by_cases cid : y.cid = x.cid
    · have gens : s.gen y.cid = y.gen + 1 ↔ x = y := by
        rw [cid, cur.2]
        obtain ⟨xc, xg⟩ := x
        obtain ⟨yc, yg⟩ := y
        simp only at cid
        simp only [cid, Alloc.mk.injEq, true_and, Nat.add_right_cancel_iff]
      simp only [State.owner, State.goto, State.setCid, gens]
      rw [cid]
      simp [cur.1]
    · have ne : x ≠ y := fun same => cid (congrArg Alloc.cid same.symm)
      simp [State.owner, State.goto, State.setCid, cid, ne]
  refine ⟨?_, ?_⟩
  · intro y
    have own := h.own y
    have moved := tally_update (Pc.working y) s.pcs t .idle
    have ret := tally_update (Pc.returning y) s.pcs t .idle
    have := owner y
    rw [at_ y] at moved
    rw [returning y] at ret
    simp only [State.working, State.live, State.goto, State.setCid, Pc.working, Pc.starting,
      Pc.freeing, Pc.returning] at *
    omega
  · intro y
    have once := h.once y
    have := owner y
    have := done y
    have same : y.born ({ s.setCid x.cid false with freed := freed, aborted := aborted }.goto t
      Pc.idle).gen = y.born s.gen := rfl
    simp only [State.goto, State.setCid] at *
    omega

end Owned

/-! ### What a thread knows of its slot -/

/-- The slot after the stores in `todo`. -/
def stores : List (Field × ℤ) → (Field → ℤ) → Field → ℤ
  | [], m => m
  | (f, v) :: todo, m => stores todo (Function.update m f v)

theorem stores_congr {g : Field} {todo : List (Field × ℤ)} {m m' : Field → ℤ} (h : m g = m' g) :
    stores todo m g = stores todo m' g := by
  induction todo generalizing m m' with
  | nil => exact h
  | cons p todo ih =>
      obtain ⟨f, v⟩ := p
      apply ih
      by_cases same : g = f
      · subst same
        simp
      · simp only [Function.update_of_ne same, h]

/-- The id of the slot is stored, or will be, and the locals of a free are right. -/
def Knows (size : Nat) (cmds : Nat → Field → ℤ) : Pc → Prop
  | .idle | .load _ | .dec _ => True
  | .rqAcquire x _ | .cidUndo x | .nrInc x _ _ | .clear x _ _ _ => x.cid < size
  | .store x _ todo => x.cid < size ∧ stores todo (cmds x.cid) .cid = x.cid ∧
      ∀ p ∈ todo, p.1 ≠ .refcnt ∧ p.1 ≠ .injected
  | .tail x todo => x.cid < size ∧ cmds x.cid .cid = x.cid ∧ ∀ p ∈ todo, p.1.soft = true
  | .cas _ old => 0 < old
  | .freeRead x => x.cid < size ∧ cmds x.cid .cid = x.cid
  | .freeClear x l _ | .freeDec x l | .freeRq x l | .freeCid x l =>
      x.cid < size ∧ l.cid = x.cid ∧ l.freeCmd = true

theorem Knows.congr {size : Nat} {cmds cmds' : Nat → Field → ℤ} {pc : Pc}
    (h : Knows size cmds pc)
    (same : ∀ x, 0 < pc.working x + pc.returning x → cmds' x.cid .cid = cmds x.cid .cid) :
    Knows size cmds' pc := by
  cases pc with
  | store x vcq todo =>
      refine ⟨h.1, ?_, h.2.2⟩
      rw [← h.2.1]
      exact stores_congr (same x (by simp [Pc.working, Pc.starting]))
  | tail x todo =>
      refine ⟨h.1, ?_, h.2.2⟩
      rw [← h.2.1]
      exact same x (by simp [Pc.returning])
  | freeRead x =>
      refine ⟨h.1, ?_⟩
      rw [← h.2]
      exact same x (by simp [Pc.working, Pc.freeing])
  | idle | load cid | dec x | rqAcquire x vcq | cidUndo x | nrInc x rq vcq | clear x rq vcq todo
  | cas cid old | freeClear x l todo | freeDec x l | freeRq x l | freeCid x l => exact h

section Filled

variable {ι : Type}

structure State.Filled (s : State ι) : Prop where
  injected : ∀ cid, s.cmds cid .injected = 0
  out : ∀ x ∈ s.out, x.cid < s.size ∧ s.cmds x.cid .cid = x.cid
  threads : ∀ t, Knows s.size s.cmds (s.pcs t)

theorem start_filled (size : Nat) (rqs : List ℤ) : (start ι size rqs).Filled :=
  ⟨fun _ => rfl, fun _ h => absurd h List.not_mem_nil, fun _ => trivial⟩

variable [DecidableEq ι]

/-- The slots stay as they are. -/
theorem State.Filled.goto {s s₁ : State ι} (h : s.Filled) {t : ι} {pc : Pc} (pcs : s₁.pcs = s.pcs)
    (size : s₁.size = s.size) (cmds : s₁.cmds = s.cmds)
    (out : ∀ x ∈ s₁.out, x ∈ s.out ∨ x.cid < s.size ∧ s.cmds x.cid .cid = x.cid)
    (knows : Knows s.size s.cmds pc) : (s₁.goto t pc).Filled := by
  refine ⟨?_, ?_, ?_⟩
  · intro cid
    simpa only [State.goto, cmds] using h.injected cid
  · intro x mem
    simp only [State.goto, size, cmds] at *
    rcases out x mem with old | new
    · exact h.out x old
    · exact new
  · intro u
    simp only [State.goto, size, cmds, pcs]
    by_cases own : u = t
    · subst own
      simpa only [Function.update_self] using knows
    · simpa only [Function.update_of_ne own] using h.threads u

omit [DecidableEq ι] in
/-- A store that leaves the id of the slot alone. -/
theorem State.Filled.set {s : State ι} (h : s.Filled) {cid : Nat} {f : Field} {v : ℤ}
    (ne : f ≠ .cid) (injected : f = .injected → v = 0) : (s.set cid f v).Filled := by
  have same : ∀ c, (s.set cid f v).cmds c .cid = s.cmds c .cid := by
    intro c
    by_cases own : c = cid
    · subst own
      simp [State.set, ne.symm]
    · simp [State.set, own]
  refine ⟨?_, ?_, ?_⟩
  · intro c
    have zero := h.injected c
    by_cases own : c = cid
    · subst own
      by_cases inj : f = .injected
      · subst inj
        simp [State.set, injected rfl]
      · simpa [State.set, Ne.symm inj] using zero
    · simpa [State.set, own] using zero
  · intro x mem
    rw [same]
    exact h.out x mem
  · intro u
    exact (h.threads u).congr fun x _ => same x.cid

variable [Fintype ι]

/-- A store to the slot by the thread that works on it. -/
theorem State.Filled.setOwn {s : State ι} (h : s.Filled) (owned : s.Owned) {t : ι} {x : Alloc}
    {pc : Pc} {f : Field} {v : ℤ} (at_ : (s.pcs t).working x = 1)
    (injected : f = .injected → v = 0) (knows : Knows s.size (s.set x.cid f v).cmds pc) :
    ((s.set x.cid f v).goto t pc).Filled := by
  have other : ∀ c, c ≠ x.cid → (s.set x.cid f v).cmds c = s.cmds c :=
    fun c ne => Function.update_of_ne ne _ _
  refine ⟨?_, ?_, ?_⟩
  · intro c
    have zero := h.injected c
    by_cases own : c = x.cid
    · subst own
      by_cases inj : f = .injected
      · subst inj
        simp [State.goto, State.set, injected rfl]
      · simpa [State.goto, State.set, Ne.symm inj] using zero
    · simpa [State.goto, State.set, own] using zero
  · intro y mem
    have live : 0 < s.live y := Nat.add_pos_left (List.count_pos_iff.mpr mem) _
    have ne : y.cid ≠ x.cid := by
      intro cid
      have same := owned.same cid (Nat.add_pos_right _ live)
        (Nat.add_pos_left (State.working_pos at_) _)
      subst same
      have := owned.not_live at_
      omega
    have keep := h.out y mem
    simp only [State.goto]
    rw [other y.cid ne]
    exact keep
  · intro u
    simp only [State.goto]
    by_cases own : u = t
    · subst own
      rw [Function.update_self]
      exact knows
    · rw [Function.update_of_ne own]
      refine (h.threads u).congr fun y mine => ?_
      rw [other y.cid (owned.sole at_ own mine)]

end Filled

section Steps

variable {ι : Type} [Fintype ι] [DecidableEq ι] {order : List Field} {s s' : State ι} {a : Act ι}

theorem Field.soft_ne {f : Field} (soft : f.soft = true) :
    f ≠ .refcnt ∧ f ≠ .cid ∧ f ≠ .injected := by
  refine ⟨?_, ?_, ?_⟩ <;>
  · rintro rfl
    cases soft

/-- **Step lemma.** An id has one owner. -/
theorem step_owned (h : s.Owned) (filled : s.Filled) (effect : Effect order s a s')
    (held : ∀ t x, s.pcs t = .dec x → s.cmds x.cid .refcnt - 1 = 0 → x ∈ s.out) : s'.Owned := by
  cases effect with
  | claim idle lt free => exact h.claim idle free
  | look idle => exact h.goto rfl rfl rfl rfl rfl (by simp [idle, Pc.working, Pc.starting,
      Pc.freeing, Pc.returning])
  | drop idle held => exact h.goto rfl rfl rfl rfl rfl (by simp [idle, Pc.working, Pc.starting,
      Pc.freeing, Pc.returning])
  | write soft => exact ⟨h.own, h.once⟩
  | @undo t x at_ =>
      have lt : x.cid < s.size := by
        have known := filled.threads t
        rw [at_] at known
        exact known
      rw [State.cidFree, if_neg (Nat.not_le.mpr lt)]
      refine h.giveBack ?_ ?_ ?_
      · intro y
        simp [at_, Pc.working, Pc.starting, Pc.freeing]
      · intro y
        simp [at_, Pc.returning]
      · intro y
        simp [State.setCid, List.count_cons]
        omega
  | @free t x l at_ =>
      have known := filled.threads t
      rw [at_] at known
      obtain ⟨lt, cid, freeCmd⟩ := known
      have same : l.cid.toNat = x.cid := by rw [cid, Int.toNat_natCast]
      rw [freeCmd, if_pos rfl, same, State.cidFree, if_neg (Nat.not_le.mpr lt)]
      refine h.giveBack ?_ ?_ ?_
      · intro y
        simp [at_, Pc.working, Pc.starting, Pc.freeing]
      · intro y
        simp [at_, Pc.returning]
      · intro y
        simp [State.setCid, List.count_cons]
        omega
  | @return_ t x at_ =>
      refine h.goto rfl rfl rfl rfl rfl fun y => ?_
      simp [at_, Pc.working, Pc.starting, Pc.freeing, Pc.returning, List.count_cons]
  | @last t x at_ one =>
      refine h.goto rfl rfl rfl rfl rfl fun y => ?_
      have mem := List.count_pos_iff.mpr (held t x at_ one)
      simp only [at_, Pc.working, Pc.starting, Pc.freeing, Pc.returning, List.count_erase]
      by_cases same : x = y
      · subst same
        simp
        omega
      · simp [same]
  | noRq at_ | gotRq at_ | inc at_ | clear at_ | cleared at_ | store at_ | publish at_ | finish at_
  | seen at_ _ | miss at_ | below at_ _ | take at_ | retry at_ | dec at_ _ | read at_ | wipe at_
  | wiped at_ | count at_ | release at_ =>
      refine h.goto rfl rfl rfl rfl rfl fun y => ?_
      simp [at_, Pc.working, Pc.starting, Pc.freeing, Pc.returning, State.set, State.hand]

/-- **Step lemma.** Each thread goes on with what it knows. -/
theorem step_filled (h : s.Filled) (owned : s.Owned) (effect : Effect order s a s')
    (held : ∀ t x, s.pcs t = .dec x → s.cmds x.cid .refcnt - 1 = 0 → x ∈ s.out) : s'.Filled := by
  cases effect with
  | claim idle lt free => exact h.goto rfl rfl rfl (fun _ mem => .inl mem) lt
  | look idle => exact h.goto rfl rfl rfl (fun _ mem => .inl mem) trivial
  | drop idle held => exact h.goto rfl rfl rfl (fun _ mem => .inl mem) trivial
  | write soft =>
      have ne := Field.soft_ne soft
      exact h.set ne.2.1 fun inj => absurd inj ne.2.2
  | @noRq t x vcq at_ | @gotRq t x vcq rq rqs at_ | @inc t x rq vcq at_ =>
      have known := h.threads t
      rw [at_] at known
      exact h.goto rfl rfl rfl (fun _ mem => .inl mem) known
  | @undo t x at_ =>
      unfold State.cidFree
      split <;> exact h.goto rfl rfl rfl (fun _ mem => .inl mem) trivial
  | @clear t x rq vcq f todo at_ =>
      have known := h.threads t
      rw [at_] at known
      exact h.setOwn owned (by simp [at_, Pc.working, Pc.starting, Pc.freeing]) (fun _ => rfl) known
  | @cleared t x rq vcq at_ =>
      have known := h.threads t
      rw [at_] at known
      refine h.goto rfl rfl rfl (fun _ mem => .inl mem) ⟨known, ?_, by simp⟩
      simp [stores]
  | @store t x vcq v f todo at_ =>
      have known := h.threads t
      rw [at_] at known
      obtain ⟨lt, cid, ne⟩ := known
      refine h.setOwn owned (by simp [at_, Pc.working, Pc.starting, Pc.freeing]) ?_ ⟨lt, ?_, ?_⟩
      · intro inj
        exact absurd inj (ne (f, v) List.mem_cons_self).2
      · simpa [State.set, stores] using cid
      · exact fun p mem => ne p (List.mem_cons_of_mem _ mem)
  | @publish t x vcq at_ =>
      have known := h.threads t
      rw [at_] at known
      refine h.setOwn owned (by simp [at_, Pc.working, Pc.starting, Pc.freeing]) (fun inj => ?_)
        ⟨known.1, ?_, ?_⟩
      · cases inj
      · simpa [State.set, stores] using known.2.1
      · simp [Field.soft]
  | @finish t x v f todo at_ =>
      have known := h.threads t
      rw [at_] at known
      obtain ⟨lt, cid, soft⟩ := known
      have ne := Field.soft_ne (soft (f, v) List.mem_cons_self)
      refine (h.set ne.2.1 fun inj => absurd inj ne.2.2).goto rfl rfl rfl (fun _ mem => .inl mem)
        ⟨lt, ?_, fun p mem => soft p (List.mem_cons_of_mem _ mem)⟩
      simpa [State.set, ne.2.1.symm] using cid
  | @return_ t x at_ =>
      have known := h.threads t
      rw [at_] at known
      refine h.goto rfl rfl rfl ?_ trivial
      intro y mem
      rcases List.mem_cons.mp mem with new | old
      · subst new
        exact .inr ⟨known.1, known.2.1⟩
      · exact .inl old
  | seen at_ pos => exact h.goto rfl rfl rfl (fun _ mem => .inl mem) pos
  | miss at_ | below at_ _ | retry at_ =>
      exact h.goto rfl rfl rfl (fun _ mem => .inl mem) trivial
  | take at_ =>
      exact (h.set (by simp) (by simp)).goto rfl rfl rfl (fun _ mem => .inl mem) trivial
  | @last t x at_ one =>
      have fields := h.out x (held t x at_ one)
      refine (h.set (by simp) (by simp)).goto rfl rfl rfl
        (fun y mem => .inl (List.mem_of_mem_erase mem)) ⟨fields.1, ?_⟩
      simpa [State.set] using fields.2
  | dec at_ more =>
      exact (h.set (by simp) (by simp)).goto rfl rfl rfl (fun _ mem => .inl mem) trivial
  | @read t x at_ =>
      have known := h.threads t
      rw [at_] at known
      refine h.goto rfl rfl rfl (fun _ mem => .inl mem) ⟨known.1, known.2, ?_⟩
      simp [h.injected, conflict]
  | @wipe t x l f todo at_ =>
      have known := h.threads t
      rw [at_] at known
      exact h.setOwn owned (by simp [at_, Pc.working, Pc.starting, Pc.freeing]) (fun _ => rfl) known
  | @wiped t x l at_ | @count t x l at_ | @release t x l at_ =>
      have known := h.threads t
      rw [at_] at known
      exact h.goto rfl rfl rfl (fun _ mem => .inl mem) known
  | @free t x l at_ =>
      split
      · unfold State.cidFree
        split <;> exact h.goto rfl rfl rfl (fun _ mem => .inl mem) trivial
      · exact h.goto rfl rfl rfl (fun _ mem => .inl mem) trivial

end Steps

/-! ### The reference count -/

section Counted

variable {ι : Type} [Fintype ι]

/-- The count of a slot is the number of references to its last allocation, which is live as long
as there are any. -/
structure State.Counted (s : State ι) : Prop where
  refcnt : ∀ x, s.gen x.cid = x.gen + 1 → s.cmds x.cid .refcnt = s.refs x
  unused : ∀ cid, s.gen cid = 0 → s.cmds cid .refcnt = 0
  referenced : ∀ x, 0 < s.live x ↔ 0 < s.refs x

theorem start_counted (size : Nat) (rqs : List ℤ) : (start ι size rqs).Counted := by
  have refs : ∀ x, (start ι size rqs).refs x = 0 := by
    intro x
    have zero := start_tally (ι := ι) size rqs (w := Pc.holds x) rfl
    simp only [State.refs, zero]
    rfl
  have live : ∀ x, (start ι size rqs).live x = 0 := by
    intro x
    have zero := start_tally (ι := ι) size rqs (w := Pc.returning x) rfl
    simp only [State.live, zero]
    rfl
  refine ⟨?_, fun _ _ => rfl, ?_⟩
  · intro x _
    rw [refs]
    rfl
  · intro x
    rw [refs, live]

theorem State.refs_eq (s : State ι) (x : Alloc) :
    s.refs x = s.holders.count x + tally (Pc.returning x) s.pcs + tally (Pc.dropping x) s.pcs := by
  have split := tally_add (Pc.returning x) (Pc.dropping x) s.pcs
  have same : tally (Pc.holds x) s.pcs = tally (fun pc => pc.returning x + pc.dropping x) s.pcs :=
    rfl
  simp only [State.refs]
  omega

/-- The slot a thread works on has the count 0. -/
theorem State.Counted.working {s : State ι} (h : s.Counted) (owned : s.Owned) {t : ι} {x : Alloc}
    (at_ : (s.pcs t).working x = 1) : s.cmds x.cid .refcnt = 0 := by
  have cur := owned.current (Nat.add_pos_left (State.working_pos at_) _)
  have dead := owned.not_live at_
  have refs := h.referenced x
  rw [h.refcnt x cur.2]
  omega

/-- A count above 0 is the count of a live allocation. -/
theorem State.Counted.live {s : State ι} (h : s.Counted) {cid : Nat}
    (pos : s.cmds cid .refcnt ≠ 0) :
    s.gen cid = (s.current cid).gen + 1 ∧ s.cmds cid .refcnt = s.refs (s.current cid) ∧
      0 < s.live (s.current cid) := by
  have used : s.gen cid ≠ 0 := fun zero => pos (h.unused cid zero)
  have gen : s.gen cid = (s.current cid).gen + 1 := by
    simp only [State.current]
    omega
  have count := h.refcnt (s.current cid) gen
  simp only [State.current] at count
  refine ⟨gen, count, (h.referenced _).mpr ?_⟩
  rw [count] at pos
  simp only [State.current]
  omega

/-- The reference a thread is about to put is one to a live allocation. -/
theorem State.Counted.dropping {s : State ι} (h : s.Counted) (owned : s.Owned) {t : ι} {x : Alloc}
    (at_ : s.pcs t = .dec x) :
    s.gen x.cid = x.gen + 1 ∧ s.cmds x.cid .refcnt = s.refs x ∧ 0 < s.refs x := by
  have own := le_tally (Pc.dropping x) s.pcs t
  have pos : 0 < s.refs x := by
    rw [s.refs_eq]
    simp only [at_, Pc.dropping, if_true] at own
    omega
  have cur := owned.current (Nat.add_pos_right (s.working x) ((h.referenced x).mpr pos))
  exact ⟨cur.2, h.refcnt x cur.2, pos⟩

/-- The last put is one of an allocation that has returned. -/
theorem State.Counted.last_out {s : State ι} (h : s.Counted) (owned : s.Owned) {t : ι} {x : Alloc}
    (at_ : s.pcs t = .dec x) (one : s.cmds x.cid .refcnt - 1 = 0) :
    x ∈ s.out ∧ tally (Pc.returning x) s.pcs = 0 ∧ s.refs x = 1 := by
  have drop := h.dropping owned at_
  have own := le_tally (Pc.dropping x) s.pcs t
  have live := (h.referenced x).mpr drop.2.2
  have refs := s.refs_eq x
  simp only [at_, Pc.dropping, if_true] at own
  have count : s.refs x = 1 := by omega
  have none : tally (Pc.returning x) s.pcs = 0 := by omega
  refine ⟨List.count_pos_iff.mp ?_, none, count⟩
  simp only [State.live] at live
  omega

variable [DecidableEq ι]

theorem State.refs_goto {s s₁ : State ι} (pcs : s₁.pcs = s.pcs) (t : ι) (pc : Pc) (x : Alloc) :
    (s₁.goto t pc).refs x + s.holders.count x + (s.pcs t).holds x =
      s.refs x + s₁.holders.count x + pc.holds x := by
  have moved := tally_update (Pc.holds x) s.pcs t pc
  simp only [State.refs, State.goto, pcs]
  omega

theorem State.live_goto {s s₁ : State ι} (pcs : s₁.pcs = s.pcs) (t : ι) (pc : Pc) (x : Alloc) :
    (s₁.goto t pc).live x + s.out.count x + (s.pcs t).returning x =
      s.live x + s₁.out.count x + pc.returning x := by
  have moved := tally_update (Pc.returning x) s.pcs t pc
  simp only [State.live, State.goto, pcs]
  omega

/-- A thread moves, and counts and references stay. -/
theorem State.Counted.goto {s s₁ : State ι} (h : s.Counted) {t : ι} {pc : Pc}
    (pcs : s₁.pcs = s.pcs) (gen : s₁.gen = s.gen)
    (refcnt : ∀ cid, s₁.cmds cid .refcnt = s.cmds cid .refcnt)
    (refs : ∀ x, s₁.holders.count x + pc.holds x = s.holders.count x + (s.pcs t).holds x)
    (live : ∀ x, s₁.out.count x + pc.returning x = s.out.count x + (s.pcs t).returning x) :
    (s₁.goto t pc).Counted := by
  have refs' : ∀ x, (s₁.goto t pc).refs x = s.refs x := by
    intro x
    have := State.refs_goto pcs t pc x
    have := refs x
    omega
  have live' : ∀ x, (s₁.goto t pc).live x = s.live x := by
    intro x
    have := State.live_goto pcs t pc x
    have := live x
    omega
  refine ⟨?_, ?_, ?_⟩
  · intro x cur
    rw [refs']
    simp only [State.goto, gen, refcnt] at cur ⊢
    exact h.refcnt x cur
  · intro cid zero
    simp only [State.goto, gen, refcnt] at zero ⊢
    exact h.unused cid zero
  · intro x
    rw [refs', live']
    exact h.referenced x

/-- A thread moves and changes the count of the slot of `x`, its last allocation, to the number
`n` of references that are left. -/
theorem State.Counted.setRefcnt {s s₁ : State ι} (h : s.Counted) {t : ι} {pc : Pc} {x : Alloc}
    {v : ℤ} (pcs : s₁.pcs = s.pcs) (gen : s₁.gen = s.gen)
    (cmds : s₁.cmds = (s.set x.cid .refcnt v).cmds) (cur : s.gen x.cid = x.gen + 1) {n m : Nat}
    (count : v = n) (some : 0 < m ↔ 0 < n)
    (refs : ∀ y, s₁.holders.count y + pc.holds y + (if x = y then s.refs x else 0) =
      s.holders.count y + (s.pcs t).holds y + if x = y then n else 0)
    (live : ∀ y, s₁.out.count y + pc.returning y + (if x = y then s.live x else 0) =
      s.out.count y + (s.pcs t).returning y + if x = y then m else 0) :
    (s₁.goto t pc).Counted := by
  have refs' : ∀ y, (s₁.goto t pc).refs y = if x = y then n else s.refs y := by
    intro y
    have moved := State.refs_goto pcs t pc y
    have balance := refs y
    split
    case isTrue same =>
      subst same
      simp only [if_true] at balance
      omega
    case isFalse other =>
      simp only [other, if_false] at balance
      omega
  have live' : ∀ y, (s₁.goto t pc).live y = if x = y then m else s.live y := by
    intro y
    have moved := State.live_goto pcs t pc y
    have balance := live y
    split
    case isTrue same =>
      subst same
      simp only [if_true] at balance
      omega
    case isFalse other =>
      simp only [other, if_false] at balance
      omega
  have others : ∀ c, c ≠ x.cid → s₁.cmds c = s.cmds c := by
    intro c ne
    rw [cmds]
    exact Function.update_of_ne ne _ _
  refine ⟨?_, ?_, ?_⟩
  · intro y cury
    rw [refs']
    simp only [State.goto, gen] at cury ⊢
    split
    case isTrue same =>
      subst same
      rw [cmds, ← count]
      simp [State.set]
    case isFalse other =>
      have ne : y.cid ≠ x.cid := by
        intro cid
        apply other
        obtain ⟨yc, yg⟩ := y
        obtain ⟨xc, xg⟩ := x
        simp only at cid cury cur
        subst cid
        have : yg = xg := by omega
        rw [this]
      rw [others y.cid ne]
      exact h.refcnt y cury
  · intro cid zero
    simp only [State.goto, gen] at zero ⊢
    have ne : cid ≠ x.cid := by
      intro same
      rw [same] at zero
      omega
    rw [others cid ne]
    exact h.unused cid zero
  · intro y
    rw [refs', live']
    split
    · exact some
    · exact h.referenced y

variable {order : List Field} {s s' : State ι} {a : Act ι}

omit [Fintype ι] [DecidableEq ι] in
theorem State.set_refcnt_of_ne {cid : Nat} {f : Field} {v : ℤ} (ne : f ≠ .refcnt) (c : Nat) :
    (s.set cid f v).cmds c .refcnt = s.cmds c .refcnt := by
  by_cases own : c = cid
  · subst own
    simp [State.set, ne.symm]
  · simp [State.set, own]

omit [DecidableEq ι] in
/-- The store of a `memset` to the slot of the thread leaves the count at 0. -/
theorem State.Counted.clear (h : s.Counted) (owned : s.Owned) {t : ι} {x : Alloc}
    (at_ : (s.pcs t).working x = 1) (f : Field) (c : Nat) :
    (s.set x.cid f 0).cmds c .refcnt = s.cmds c .refcnt := by
  by_cases count : f = .refcnt
  · subst count
    by_cases own : c = x.cid
    · subst own
      simp [State.set, h.working owned at_]
    · simp [State.set, own]
  · exact State.set_refcnt_of_ne count c

/-- A new allocation has no references yet. -/
theorem State.Counted.claim (h : s.Counted) (owned : s.Owned) {t : ι} {cid : Nat} {vcq : ℤ}
    (idle : s.pcs t = .idle) (free : s.cids cid = false) :
    ({ s.setCid cid true with gen := Function.update s.gen cid (s.gen cid + 1) }.goto t
      (.rqAcquire ⟨cid, s.gen cid⟩ vcq)).Counted := by
  have refs : ∀ x, ({ s.setCid cid true with gen := Function.update s.gen cid (s.gen cid + 1) }.goto
      t (.rqAcquire ⟨cid, s.gen cid⟩ vcq)).refs x = s.refs x := by
    intro x
    have moved := tally_update (Pc.holds x) s.pcs t (.rqAcquire ⟨cid, s.gen cid⟩ vcq)
    simp only [State.refs, State.goto, State.setCid, idle, Pc.holds, Pc.returning,
      Pc.dropping] at *
    omega
  have live : ∀ x, ({ s.setCid cid true with gen := Function.update s.gen cid (s.gen cid + 1) }.goto
      t (.rqAcquire ⟨cid, s.gen cid⟩ vcq)).live x = s.live x := by
    intro x
    have moved := tally_update (Pc.returning x) s.pcs t (.rqAcquire ⟨cid, s.gen cid⟩ vcq)
    simp only [State.live, State.goto, State.setCid, idle, Pc.returning] at *
    omega
  -- No allocation of a free id is live, so the count is 0.
  have dead : ∀ x : Alloc, x.cid = cid → s.refs x = 0 := by
    intro x same
    have notlive : s.live x = 0 := by
      by_contra pos
      have cur := owned.current (Nat.add_pos_right (s.working x) (Nat.pos_of_ne_zero pos))
      rw [same, free] at cur
      cases cur.1
    have := h.referenced x
    omega
  have zero : s.cmds cid .refcnt = 0 := by
    by_cases used : s.gen cid = 0
    · exact h.unused cid used
    · have count := h.refcnt ⟨cid, s.gen cid - 1⟩ (by simp only; omega)
      rw [dead _ rfl] at count
      exact count
  refine ⟨?_, ?_, ?_⟩
  · intro x cur
    rw [refs]
    by_cases same : x.cid = cid
    · rw [dead x same, same]
      exact zero
    · refine h.refcnt x ?_
      simpa [State.goto, State.setCid, same] using cur
  · intro c unused
    refine h.unused c ?_
    by_cases same : c = cid
    · subst same
      simp [State.goto, State.setCid] at unused
    · simpa [State.goto, State.setCid, same] using unused
  · intro x
    rw [refs, live]
    exact h.referenced x

/-- **Step lemma.** The count is the number of references. -/
theorem step_counted (h : s.Counted) (owned : s.Owned) (filled : s.Filled)
    (effect : Effect order s a s') : s'.Counted := by
  cases effect with
  | claim idle lt free => exact h.claim owned idle free
  | look idle =>
      exact h.goto rfl rfl (fun _ => rfl) (by simp [idle, Pc.holds, Pc.returning, Pc.dropping])
        (by simp [idle, Pc.returning])
  | @drop t x idle held =>
      have pos := List.count_pos_iff.mpr held
      refine h.goto rfl rfl (fun _ => rfl) ?_ (by simp [idle, Pc.returning])
      intro y
      simp only [idle, Pc.holds, Pc.returning, Pc.dropping, List.count_erase]
      by_cases same : x = y
      · subst same
        simp
        omega
      · simp [same]
  | @write cid f v soft =>
      have same : ∀ c, (s.set cid f v).cmds c .refcnt = s.cmds c .refcnt :=
        State.set_refcnt_of_ne (Field.soft_ne soft).1
      exact ⟨fun x cur => (same x.cid).trans (h.refcnt x cur),
        fun c zero => (same c).trans (h.unused c zero), h.referenced⟩
  | @clear t x rq vcq f todo at_ =>
      have work : (s.pcs t).working x = 1 := by simp [at_, Pc.working, Pc.starting, Pc.freeing]
      refine h.goto rfl rfl (h.clear owned work f) ?_ ?_
      all_goals simp [at_, State.set, Pc.holds, Pc.returning, Pc.dropping]
  | @wipe t x l f todo at_ =>
      have work : (s.pcs t).working x = 1 := by simp [at_, Pc.working, Pc.starting, Pc.freeing]
      refine h.goto rfl rfl (h.clear owned work f) ?_ ?_
      all_goals simp [at_, State.set, Pc.holds, Pc.returning, Pc.dropping]
  | @store t x vcq v f todo at_ =>
      have known := filled.threads t
      rw [at_] at known
      refine h.goto rfl rfl (State.set_refcnt_of_ne (known.2.2 (f, v) List.mem_cons_self).1) ?_ ?_
      all_goals simp [at_, State.set, Pc.holds, Pc.returning, Pc.dropping]
  | @finish t x v f todo at_ =>
      have known := filled.threads t
      rw [at_] at known
      have ne := Field.soft_ne (known.2.2 (f, v) List.mem_cons_self)
      refine h.goto rfl rfl (State.set_refcnt_of_ne ne.1) ?_ ?_
      all_goals simp [at_, State.set, Pc.holds, Pc.returning, Pc.dropping]
  | @publish t x vcq at_ =>
      have work : (s.pcs t).working x = 1 := by simp [at_, Pc.working, Pc.starting, Pc.freeing]
      have cur := owned.current (Nat.add_pos_left (State.working_pos work) _)
      have dead := owned.not_live work
      have none := h.referenced x
      refine h.setRefcnt rfl rfl rfl cur.2 (n := 1) (m := 1) rfl Iff.rfl ?_ ?_
      · intro y
        simp only [at_, State.set, Pc.holds, Pc.returning, Pc.dropping]
        split <;> omega
      · intro y
        simp only [at_, State.set, Pc.returning]
        split <;> omega
  | @return_ t x at_ =>
      refine h.goto rfl rfl (fun _ => rfl) ?_ ?_
      all_goals simp [at_, State.hand, Pc.holds, Pc.returning, Pc.dropping, List.count_cons]
  | @below t cid at_ neg =>
      have count := (h.live (ne_of_lt neg)).2.1
      omega
  | @take t cid at_ =>
      have known := filled.threads t
      rw [at_] at known
      obtain ⟨cur, count, live⟩ := h.live (ne_of_gt known)
      have refs := (h.referenced _).mp live
      refine h.setRefcnt (x := s.current cid) rfl rfl rfl cur (n := s.refs (s.current cid) + 1)
        (m := s.live (s.current cid)) ?_ (by omega) ?_ ?_
      · rw [count]
        push_cast
        rfl
      · intro y
        simp only [at_, State.set, State.hand, Pc.holds, Pc.returning, Pc.dropping,
          List.count_cons, beq_iff_eq]
        split <;> omega
      · intro y
        simp only [at_, State.set, State.hand, Pc.returning]
  | @last t x at_ one =>
      obtain ⟨cur, count, pos⟩ := h.dropping owned at_
      obtain ⟨mem, returning, refs⟩ := h.last_out owned at_ one
      have single := owned.live_le x
      have out := List.count_pos_iff.mpr mem
      have lives : s.live x = s.out.count x + tally (Pc.returning x) s.pcs := rfl
      refine h.setRefcnt rfl rfl rfl cur (n := 0) (m := 0) one Iff.rfl ?_ ?_
      · intro y
        simp only [at_, State.set, Pc.holds, Pc.returning, Pc.dropping]
        split <;> omega
      · intro y
        simp only [at_, Pc.returning, List.count_erase, beq_iff_eq]
        split
        case isTrue same =>
          subst same
          omega
        case isFalse => omega
  | @dec t x at_ more =>
      obtain ⟨cur, count, pos⟩ := h.dropping owned at_
      have live := (h.referenced x).mpr pos
      refine h.setRefcnt rfl rfl rfl cur (n := s.refs x - 1) (m := s.live x) ?_ ?_ ?_ ?_
      · omega
      · omega
      · intro y
        simp only [at_, State.set, Pc.holds, Pc.returning, Pc.dropping]
        split <;> omega
      · intro y
        simp only [at_, State.set, Pc.returning]
  | @undo t x at_ =>
      unfold State.cidFree
      split
      all_goals
        refine h.goto rfl rfl (fun _ => rfl) ?_ ?_
        all_goals simp [at_, State.setCid, Pc.holds, Pc.returning, Pc.dropping]
  | @free t x l at_ =>
      split
      · unfold State.cidFree
        split
        all_goals
          refine h.goto rfl rfl (fun _ => rfl) ?_ ?_
          all_goals simp [at_, State.setCid, Pc.holds, Pc.returning, Pc.dropping]
      · refine h.goto rfl rfl (fun _ => rfl) ?_ ?_
        all_goals simp [at_, Pc.holds, Pc.returning, Pc.dropping]
  | noRq at_ | gotRq at_ | inc at_ | cleared at_ | seen at_ _ | miss at_ | retry at_ | read at_
  | wiped at_ | count at_ | release at_ =>
      refine h.goto rfl rfl (fun _ => rfl) ?_ ?_
      all_goals simp [at_, Pc.holds, Pc.returning, Pc.dropping]

end Counted

/-! ### The counter of the queue -/

/-- 1 for a thread whose command is in `nr_cmds`. -/
def Pc.counted : Pc → Nat
  | .clear .. | .store .. | .tail .. | .freeRead _ | .freeClear .. | .freeDec .. => 1
  | _ => 0

section Runs

variable {ι : Type} [Fintype ι] [DecidableEq ι] {order : List Field} {s s' : State ι} {a : Act ι}

/-- `nr_cmds` is the number of commands that returned and are not being freed, and of the threads
that make or free one of the others. -/
def State.NrCmds (s : State ι) : Prop := s.nrCmds = s.out.length + tally Pc.counted s.pcs

theorem State.NrCmds.goto {s s₁ : State ι} (h : s.NrCmds) {t : ι} {pc : Pc} (pcs : s₁.pcs = s.pcs)
    (balance : s₁.nrCmds + s.out.length + (s.pcs t).counted =
      s.nrCmds + s₁.out.length + pc.counted) : (s₁.goto t pc).NrCmds := by
  have moved := tally_update Pc.counted s.pcs t pc
  simp only [State.NrCmds, State.goto, pcs] at *
  omega

/-- **Step lemma.** -/
theorem step_nrCmds (h : s.NrCmds) (effect : Effect order s a s')
    (held : ∀ t x, s.pcs t = .dec x → s.cmds x.cid .refcnt - 1 = 0 → x ∈ s.out) : s'.NrCmds := by
  cases effect with
  | write soft => exact h
  | @last t x at_ one =>
      have mem := held t x at_ one
      have pos := List.length_pos_of_mem mem
      refine h.goto rfl ?_
      simp only [at_, State.set, Pc.counted, List.length_erase_of_mem mem]
      omega
  | @return_ t x at_ =>
      refine h.goto rfl ?_
      simp only [at_, State.hand, Pc.counted, List.length_cons]
      omega
  | undo at_ =>
      unfold State.cidFree
      split <;> exact h.goto rfl (by simp [at_, State.setCid, Pc.counted])
  | free at_ =>
      split
      · unfold State.cidFree
        split <;> exact h.goto rfl (by simp [at_, State.setCid, Pc.counted])
      · exact h.goto rfl (by simp [at_, Pc.counted])
  | inc at_ | count at_ =>
      refine h.goto rfl ?_
      simp only [at_, Pc.counted]
      omega
  | claim idle _ _ | look idle | drop idle _ =>
      exact h.goto rfl (by simp [idle, State.setCid, Pc.counted])
  | noRq at_ | gotRq at_ | clear at_ | cleared at_ | store at_ | publish at_ | finish at_
  | seen at_ _ | miss at_ | below at_ _ | take at_ | retry at_ | dec at_ _ | read at_ | wipe at_
  | wiped at_ | release at_ =>
      exact h.goto rfl (by simp [at_, State.set, State.hand, Pc.counted])

/-! ### Runs -/

structure State.Inv (s : State ι) : Prop where
  owned : s.Owned
  filled : s.Filled
  counted : s.Counted
  nrCmds : s.NrCmds

omit [DecidableEq ι] in
theorem start_inv (size : Nat) (rqs : List ℤ) : (start ι size rqs).Inv := by
  refine ⟨start_owned size rqs, start_filled size rqs, start_counted size rqs, ?_⟩
  have none := start_tally (ι := ι) size rqs (w := Pc.counted) rfl
  simp only [State.NrCmds, none]
  rfl

theorem step_inv (h : s.Inv) (hstep : step order s a = some s') : s'.Inv := by
  have effect := step_effect hstep
  have held : ∀ t x, s.pcs t = .dec x → s.cmds x.cid .refcnt - 1 = 0 → x ∈ s.out :=
    fun t x at_ one => (h.counted.last_out h.owned at_ one).1
  exact ⟨step_owned h.owned h.filled effect held, step_filled h.filled h.owned effect held,
    step_counted h.counted h.owned h.filled effect, step_nrCmds h.nrCmds effect held⟩

omit [DecidableEq ι] in
theorem State.Inv.once (h : s.Inv) {x : Alloc} (born : x.gen < s.gen x.cid) :
    s.starting x + s.live x + s.freeing x + s.freed.count x + s.aborted.count x = 1 := by
  have own := h.owned.own x
  have once := h.owned.once x
  have split := tally_add (Pc.starting x) (Pc.freeing x) s.pcs
  have same : s.working x = tally (fun pc => pc.starting x + pc.freeing x) s.pcs := rfl
  rw [Alloc.born, if_pos born] at once
  simp only [State.starting, State.freeing]
  omega

omit [DecidableEq ι] in
theorem State.Inv.covered (h : s.Inv) : (s.nrLive : ℤ) ≤ s.nrCmds := by
  have nr := h.nrCmds
  have le : tally Pc.anyReturning s.pcs ≤ tally Pc.counted s.pcs := by
    refine tally_le (fun pc => ?_) s.pcs
    cases pc <;> simp [Pc.anyReturning, Pc.counted]
  simp only [State.NrCmds, State.nrLive] at *
  omega

omit [DecidableEq ι] in
theorem State.Inv.sound (h : s.Inv) : s.Sound := by
  refine ⟨fun x born => h.once born, h.counted.referenced, h.covered, ?_⟩
  intro idle none x born
  have zero : ∀ w : Pc → Nat, w .idle = 0 → tally w s.pcs = 0 := by
    intro w none
    refine tally_eq_zero fun t => ?_
    rw [idle t]
    exact none
  have once := h.once born
  have refs : s.refs x = 0 := by
    simp only [State.refs, none, zero (Pc.holds x) rfl]
    rfl
  have live := h.counted.referenced x
  simp only [State.starting, State.freeing, zero (Pc.starting x) rfl, zero (Pc.freeing x) rfl]
    at once
  omega

theorem step_sound (h : s.Inv) (hstep : step order s a = some s') : StepSound s a s' := by
  have effect := step_effect hstep
  cases effect with
  | below at_ neg =>
      have count := (h.counted.live (ne_of_lt neg)).2.1
      omega
  | @take t cid at_ =>
      have known := h.filled.threads t
      rw [at_] at known
      simp only [StepSound, at_]
      intro _
      exact ⟨(h.counted.live (ne_of_gt known)).2.2, rfl⟩
  | @wipe t x l f todo at_ =>
      have work : (s.pcs t).working x = 1 := by simp [at_, Pc.working, Pc.starting, Pc.freeing]
      have cur := h.owned.current (Nat.add_pos_left (State.working_pos work) _)
      simp only [StepSound, at_]
      exact ⟨cur.2, cur.1⟩
  | claim | look | drop | write => trivial
  | seen at_ _ | miss at_ | retry at_ => simp [StepSound, at_, State.goto]
  | noRq at_ | gotRq at_ | undo at_ | inc at_ | clear at_ | cleared at_ | store at_ | publish at_
  | finish at_ | return_ at_ | last at_ _ | dec at_ _ | read at_ | wiped at_ | count at_
  | release at_ | free at_ => simp [StepSound, at_]

/-- **Command lifetime.** In every run of allocations, gets, puts and frees by any number of
threads, every state is sound, and so is every step. -/
theorem command_lifetime {size : Nat} {rqs : List ℤ} {as : List (Act ι)}
    (hrun : run (step order) (start ι size rqs) as = some s) :
    s.Sound ∧ Steps (step order) StepSound (start ι size rqs) as := by
  refine ⟨(run_inv_all (fun _ _ _ h hstep => step_inv h hstep) (start_inv size rqs) hrun).sound, ?_⟩
  exact steps_of_guarded (I := State.Inv) (P := fun _ _ => True)
    (fun _ _ _ h _ hstep => step_inv h hstep) (fun _ _ _ h _ hstep => step_sound h hstep)
    (start_inv size rqs) (Guarded.of_forall (fun _ _ => trivial) as _)

end Runs

/-- The fields in the order of the structure. -/
def Field.all : List Field :=
  [.u, .refcnt, .state, .flags, .usq, .vcq, .cid, .rq, .buf, .mbuf, .data, .completed, .timeout,
    .sqe, .cqe, .injected]

/-- The owner allocates and puts its command while another thread has a reference, which frees it;
then the slot is claimed again. -/
def recycle : List (Act Thread) :=
  .alloc .a 0 0 :: List.replicate 27 (.step .a) ++
    [.get .b 0, .step .b, .step .b, .put .a ⟨0, 0⟩, .step .a, .put .b ⟨0, 0⟩] ++
    List.replicate 22 (.step .b) ++ [.alloc .a 0 0]

theorem recycled_slot_sound :
    ∃ s, run (step Field.all) (start Thread 1 [7]) recycle = some s ∧
      (s.freed, s.gen 0, s.nrCmds) = ([⟨0, 0⟩], 2, 0) ∧ s.Sound ∧
      Steps (step Field.all) StepSound (start Thread 1 [7]) recycle := by
  have ends : (run (step Field.all) (start Thread 1 [7]) recycle).map
      (fun s => (s.freed, s.gen 0, s.nrCmds)) = some ([⟨0, 0⟩], 2, 0) := by
    decide +kernel
  obtain ⟨s, hrun, hs⟩ := Option.map_eq_some_iff.mp ends
  exact ⟨s, hrun, hs, command_lifetime hrun⟩

end Unvmed.CmdLife
