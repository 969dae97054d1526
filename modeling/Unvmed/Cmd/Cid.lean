import Unvmed.Lib.Run
import Unvmed.Lib.Tally
import Unvmed.Lib.Bitmap
import Unvmed.Basic

/-!
The command id allocator (`lib/libunvmed-cmds.c`).

A queue's ids are a bitmap of bytes changed by compare-and-swap. Every load and
compare-and-swap of a byte, every request taken from or given back to libvfn,
every change of `usq->nr_cmds` and every fill or clear of a command is one step,
and any number of threads interleave.

* `cid_allocator`: in every reachable state the set bits are the owned ids plus
  the padding bits, outstanding commands have different ids below `size`, at most
  one conflict command is outstanding, `nr_cmds` counts the outstanding commands
  when no call is running, no step for a conflict command changes a bit, and an
  auto-allocation that runs alone finds a free id whatever the hint.
-/

namespace Unvmed.Cid

open Lib

/-- `struct unvme_bitmap`. -/
structure Bitmap where
  size : Nat
  nrBytes : Nat
  bits : List (BitVec 8)
  /-- The byte where the last scan found a free bit. -/
  top : Nat
  deriving Repr

/-- `unvmed_cid_init`: the bits past `size` in the last byte are marked in use. -/
def cidInit (size : Nat) : Bitmap where
  size := size
  nrBytes := (size + 8 - 1) / 8
  bits :=
    let bits := List.replicate ((size + 8 - 1) / 8) 0#8
    if size % 8 ≠ 0 then bits.set ((size + 8 - 1) / 8 - 1) (0xff#8 <<< (size % 8)) else bits
  top := 0

/-- Where a thread is in `__unvmed_cmd_alloc` or `__unvmed_cmd_free`. Each name
says which access comes next. -/
inductive Pc where
  | idle
  /-- `unvmed_cid_alloc`: load of `bitmap->top`. -/
  | topLoad
  /-- The retry loop on the hinted byte. -/
  | hintLoad (i : Nat)
  | hintCas (i : Nat) (old : BitVec 8) (pos : Nat)
  /-- The fallback scan over all bytes. -/
  | scanLoad (i : Nat)
  | scanCas (i : Nat) (old : BitVec 8) (pos : Nat)
  | topStore (i cid : Nat)
  /-- `unvmed_cid_alloc_n` -/
  | pinLoad (cid : Nat)
  | pinCas (cid : Nat) (old : BitVec 8)
  /-- `__unvmed_cmd_alloc` once it owns `cid`. -/
  | rqAcquire (cid : Nat)
  | nrInc (cid rq : Nat)
  | fill (cid rq : Nat)
  /-- `__unvmed_conflict_cmd_alloc` -/
  | conflictCas (cid : Nat)
  | conflictRq (cid : Nat)
  | conflictUndo
  | conflictInc (cid rq : Nat)
  | conflictFill (cid rq : Nat)
  /-- `__unvmed_cmd_free`: reads the command's fields and clears it. -/
  | freeClear (slot : Slot)
  | freeDec (slot : Slot) (rq : Option Nat) (cid : Nat) (freeCmd : Bool)
  | freeRq (slot : Slot) (rq : Option Nat) (cid : Nat) (freeCmd : Bool)
  /-- `unvmed_cid_free`, for the command that was in `slot`. -/
  | cidFreeLoad (slot : Slot) (cid : Nat)
  | cidFreeCas (slot : Slot) (cid : Nat) (old : BitVec 8)
  deriving DecidableEq, Repr

/-- One submission queue and the threads that allocate from it. -/
structure State (ι : Type) where
  cids : Bitmap
  /-- `usq->nr_cmds` -/
  nrCmds : Int
  cmds : Cmds
  /-- The requests of libvfn's queue that are free. -/
  rqs : List Nat
  /-- The commands returned by an allocation and not yet being freed. -/
  live : List Slot
  /-- The `vcq_id` argument of each thread's call. -/
  vcqId : ι → Nat
  pcs : ι → Pc

inductive Act (ι : Type) where
  /-- `__unvmed_cmd_alloc`; `none` lets the allocator choose the id. -/
  | cmdAlloc (t : ι) (cid : Option Nat) (vcqId : Nat)
  /-- `__unvmed_cmd_free` of an outstanding command. -/
  | cmdFree (t : ι) (slot : Slot)
  /-- The submission and completion paths move an outstanding command's state. -/
  | setState (slot : Slot) (st : CmdState)
  | step (t : ι)
  deriving Repr

section Step

/-- `unvmed_cid_free` returns `EINVAL` before any access for an id past `size`. -/
def cidFreeEntry (b : Bitmap) (slot : Slot) (cid : Nat) : Pc :=
  if cid ≥ b.size then .idle else .cidFreeLoad slot cid

/-- `uint16_t *cid = i * 8 + pos`. -/
def cidOf (i pos : Nat) : Nat := (i * 8 + pos) % 2 ^ 16

/-- The scan's loop head. -/
def scanEntry (b : Bitmap) (i : Nat) : Pc := if i < b.nrBytes then .scanLoad i else .idle

def Bitmap.load (b : Bitmap) (i : Nat) : BitVec 8 := b.bits.getD i 0

def Bitmap.store (b : Bitmap) (i : Nat) (v : BitVec 8) : Bitmap := { b with bits := b.bits.set i v }

variable {ι : Type} [DecidableEq ι]

def State.goto (s : State ι) (t : ι) (pc : Pc) : State ι :=
  { s with pcs := Function.update s.pcs t pc }

/-- The command `__unvmed_cmd_alloc` leaves in `usq->cmds[cid]`. -/
def newCmd (cid rq vcqId : Nat) : Cmd :=
  { cid := cid, rq := some rq, refcnt := 1, state := .allocated, vcq := vcqId }

/-- The fields `__unvmed_conflict_cmd_alloc` writes; `state` is left alone. -/
def conflictCmd (cmd : Cmd) (cid rq vcqId : Nat) : Cmd :=
  { state := cmd.state, refcnt := 1, vcq := vcqId, cid := cid, rq := some rq,
    injected := .conflict }

/-- The next access of thread `t`. -/
def threadStep (s : State ι) (t : ι) : Option (State ι) :=
  match s.pcs t with
  | .idle => none
  | .topLoad => some (s.goto t (.hintLoad s.cids.top))
  | .hintLoad i =>
      let old := s.cids.load i
      if old = 0xFF#8 then some (s.goto t (scanEntry s.cids 0))
      else match findFirstZero old with
        | none => some (s.goto t (scanEntry s.cids 0))
        | some pos => some (s.goto t (.hintCas i old pos))
  | .hintCas i old pos =>
      if s.cids.load i = old then
        some ({ s with cids := s.cids.store i (old ||| 1#8 <<< pos) }.goto t
          (.rqAcquire (cidOf i pos)))
      else some (s.goto t (.hintLoad i))
  | .scanLoad i =>
      let old := s.cids.load i
      if old = 0xFF#8 then some (s.goto t (scanEntry s.cids (i + 1)))
      else match findFirstZero old with
        | none => some (s.goto t (scanEntry s.cids (i + 1)))
        | some pos => some (s.goto t (.scanCas i old pos))
  | .scanCas i old pos =>
      if s.cids.load i = old then
        some ({ s with cids := s.cids.store i (old ||| 1#8 <<< pos) }.goto t
          (.topStore i (cidOf i pos)))
      -- Unlike the hint loop, a lost race moves on to the next byte.
      else some (s.goto t (scanEntry s.cids (i + 1)))
  | .topStore i cid => some ({ s with cids := { s.cids with top := i } }.goto t (.rqAcquire cid))
  | .pinLoad cid =>
      let old := s.cids.load (cid / 8)
      if old.getLsbD (cid % 8) then some (s.goto t (.conflictCas cid))
      else some (s.goto t (.pinCas cid old))
  | .pinCas cid old =>
      if s.cids.load (cid / 8) = old then
        some ({ s with cids := s.cids.store (cid / 8) (old ||| 1#8 <<< (cid % 8)) }.goto t
          (.rqAcquire cid))
      else some (s.goto t (.pinLoad cid))
  | .rqAcquire cid => match s.rqs with
      | [] => some (s.goto t (cidFreeEntry s.cids (.cmd cid) cid))
      | rq :: rqs => some ({ s with rqs := rqs }.goto t (.nrInc cid rq))
  | .nrInc cid rq => some ({ s with nrCmds := s.nrCmds + 1 }.goto t (.fill cid rq))
  | .fill cid rq =>
      some ({ s with cmds := Function.update s.cmds (.cmd cid) (newCmd cid rq (s.vcqId t)),
                     live := .cmd cid :: s.live }.goto t .idle)
  | .conflictCas cid =>
      if (s.cmds .conflict).state = .init then
        some ({ s with cmds := s.cmds.setState .conflict .allocated }.goto t (.conflictRq cid))
      else some (s.goto t .idle)
  | .conflictRq cid => match s.rqs with
      | [] => some (s.goto t .conflictUndo)
      | rq :: rqs => some ({ s with rqs := rqs }.goto t (.conflictInc cid rq))
  | .conflictUndo => some ({ s with cmds := s.cmds.setState .conflict .init }.goto t .idle)
  | .conflictInc cid rq => some ({ s with nrCmds := s.nrCmds + 1 }.goto t (.conflictFill cid rq))
  | .conflictFill cid rq =>
      some ({ s with
        cmds := Function.update s.cmds .conflict (conflictCmd (s.cmds .conflict) cid rq (s.vcqId t)),
        live := .conflict :: s.live }.goto t .idle)
  | .freeClear slot =>
      let cmd := s.cmds slot
      some ({ s with cmds := Function.update s.cmds slot {} }.goto t
        (.freeDec slot cmd.rq cmd.cid (decide (cmd.injected ≠ Inject.conflict))))
  | .freeDec slot rq cid freeCmd =>
      some ({ s with nrCmds := s.nrCmds - 1 }.goto t (.freeRq slot rq cid freeCmd))
  | .freeRq slot rq cid freeCmd =>
      some ({ s with rqs := rq.toList ++ s.rqs }.goto t
        (if freeCmd then cidFreeEntry s.cids slot cid else .idle))
  | .cidFreeLoad slot cid => some (s.goto t (.cidFreeCas slot cid (s.cids.load (cid / 8))))
  | .cidFreeCas slot cid old =>
      if s.cids.load (cid / 8) = old then
        some ({ s with cids := s.cids.store (cid / 8) (old &&& ~~~(1#8 <<< (cid % 8))) }.goto t
          .idle)
      else some (s.goto t (.cidFreeLoad slot cid))

def step (s : State ι) : Act ι → Option (State ι)
  | .cmdAlloc t cid vcqId => match s.pcs t with
      | .idle =>
          let s := { s with vcqId := Function.update s.vcqId t vcqId }
          match cid with
          | none => some (s.goto t .topLoad)
          | some cid => some (s.goto t (if cid ≥ s.cids.size then .idle else .pinLoad cid))
      | _ => none
  | .cmdFree t slot => match s.pcs t with
      | .idle =>
          if slot ∈ s.live then some ({ s with live := s.live.erase slot }.goto t (.freeClear slot))
          else none
      | _ => none
  | .setState slot st =>
      if slot ∈ s.live ∧ st ≠ .init then some { s with cmds := s.cmds.setState slot st } else none
  | .step t => threadStep s t

end Step

/-- A queue whose bitmap was just initialised and whose commands are zeroed. -/
def start (ι : Type) (size : Nat) (rqs : List Nat) : State ι where
  cids := cidInit size
  nrCmds := 0
  cmds := fun _ => {}
  rqs := rqs
  live := []
  vcqId := fun _ => 0
  pcs := fun _ => .idle

/-! ### What the allocator is for -/

/-- A bit past `size` in the last byte. -/
def Bitmap.Padding (b : Bitmap) (c : Nat) : Prop := b.size ≤ c ∧ c < 8 * b.nrBytes

/-- 1 while a thread owns id `c` without an outstanding command for it: inside an
allocation that has set the bit, or inside a free that has not cleared it. -/
def Pc.owns (c : Nat) : Pc → Nat
  | .topStore _ cid | .rqAcquire cid | .nrInc cid _ | .fill cid _ => if cid = c then 1 else 0
  | .cidFreeLoad _ cid | .cidFreeCas _ cid _ => if cid = c then 1 else 0
  | .freeClear slot => if slot = .cmd c then 1 else 0
  | .freeDec _ _ cid freeCmd | .freeRq _ _ cid freeCmd =>
      if freeCmd = true ∧ cid = c then 1 else 0
  | _ => 0

/-- 1 while a thread has taken the conflict slot and no command is outstanding there. -/
def Pc.holdsConflict : Pc → Nat
  | .conflictRq _ | .conflictUndo | .conflictInc _ _ | .conflictFill _ _ => 1
  | .freeClear slot => if slot = .conflict then 1 else 0
  | _ => 0

/-- 1 while `nr_cmds` counts a command that is not outstanding. -/
def Pc.counted : Pc → Nat
  | .fill _ _ | .conflictFill _ _ | .freeClear _ | .freeDec _ _ _ _ => 1
  | _ => 0

/-- The thread works for the command of the conflict slot. -/
def Pc.forConflict : Pc → Prop
  | .conflictCas _ | .conflictRq _ | .conflictUndo | .conflictInc _ _ | .conflictFill _ _ => True
  | .freeClear slot | .freeDec slot _ _ _ | .freeRq slot _ _ _ => slot = .conflict
  | .cidFreeLoad slot _ | .cidFreeCas slot _ _ => slot = .conflict
  | _ => False

section Purpose

variable {ι : Type}

/-- The ids of the outstanding commands that are not conflict commands. -/
def State.liveCids (s : State ι) : List Nat :=
  (s.live.filter (· ≠ .conflict)).map fun slot => (s.cmds slot).cid

/-- `c` belongs to an outstanding command or to a call in progress. -/
def State.Owned (s : State ι) (c : Nat) : Prop :=
  c ∈ s.liveCids ∨ ∃ t, (s.pcs t).owns c = 1

structure State.Sound (s : State ι) : Prop where
  distinct : s.liveCids.Nodup
  in_range : ∀ c ∈ s.liveCids, c < s.cids.size
  bits_exact : ∀ c, testBit s.cids.bits c = true ↔ s.Owned c ∨ s.cids.Padding c
  one_conflict : s.live.count .conflict ≤ 1
  nr_cmds : (∀ t, s.pcs t = .idle) → s.nrCmds = s.live.length

end Purpose

end Unvmed.Cid
